import JsonExpect.Proofs.Assertion.Verdict
import JsonExpect.Proofs.Yields

/-!
# Reordering the actual array

When all items of an expected array may match in any order, each takes the first actual item that
meets it and never gives it back. So the order of the actual items can decide: an item that asks for
little may take the only one that would do for a later item that asks for more
(`Assertion.verdict_reordered_contended`). The order is irrelevant just when no order lets all
items find theirs, or none keeps one of them from it (`Assertion.verdict_reordered`).
-/

namespace JsonExpect

namespace Assertion

open Comparison (Assignable Unblocked Exchangeable Draws)

/-- The call that lets all items of the root array match in any order. -/
def anyOrderItems : Directive × List PathArgument :=
  (.scoped .anyOrder .singleNode, [.value (.string "[*]")])

theorem ofValue?_items : Path.ofValue? (.string "[*]") = .ok ⟨[.anyIndex]⟩ :=
  eq_ok_of_toOption (by decide +kernel)

/-- A node that sets overrides at all items of the root array, and nothing else. -/
def itemsNode (own : Overrides) : Node := { template := some { name := some "[*]", own } }

/-- At each item the overrides are set, and below the item nothing. -/
theorem resolveKey_itemsNode (own : Overrides) (k : Key) :
    ∃ name o, (itemsNode own).resolveKey k = ⟨name, {}, o, [], none⟩ ∧ (o = {} ∨ o = own) := by
  unfold Node.resolveKey
  split
  · exact ⟨none, {}, rfl, .inl rfl⟩
  · exact ⟨some k.display, own, rfl, .inr rfl⟩

theorem unconstrained_itemsNode {own : Overrides} (hkey : own.keyMustBeAbsent = none)
    (hcount : own.elementCount = none) : (itemsNode own).Unconstrained := by
  refine Node.unconstrained_of_below rfl rfl fun k => ?_
  obtain ⟨name, o, hnode, ho⟩ := resolveKey_itemsNode own k
  have hopen : o.keyMustBeAbsent = none ∧ o.elementCount = none := by
    obtain rfl | rfl := ho
    · exact ⟨rfl, rfl⟩
    · exact ⟨hkey, hcount⟩
  rw [hnode]
  refine Node.unconstrained_of_bare rfl rfl ?_ rfl hopen.2
  simp [Node.flag, Node.flag?, Overrides.get, hopen.1, Bundle.get]

/-- What that call sets at each item. -/
def anyOrder : Overrides := { anyOrder := some true }

theorem follows_element_itemsNode (j : Nat) :
    (Comparison.element (itemsNode anyOrder) j).Follows
      fun f => (({} : Bundle).get f).getD false := by
  refine Node.follows_of_bare rfl rfl (fun _ => rfl) fun f hf => ?_
  cases f <;> first | rfl | exact absurd rfl hf

variable {policy : SnapshotPolicy} {items others : List Value}

/-- Where the items of the root array match in any order, they draw from the actual array what they
accept. -/
theorem decides_itemsNode {own : Overrides} {R : Value → Value → Prop}
    (hown : own.anyOrder = some true) (hkey : own.keyMustBeAbsent = none)
    (hcount : own.elementCount = none) (hitems : ∀ v ∈ items, v.IsDocument)
    (hothers : ∀ w ∈ others, w.IsDocument)
    (hR : ∀ v ∈ items, ∀ w ∈ others, ∀ j : Nat,
      Comparison.Accepts policy ([] ++ [.int ↑j]) (Comparison.element (itemsNode own) j) v w ↔
        R v w) :
    Decides ⟨.array items, .array others, itemsNode own, policy⟩ [] (Draws R items others) := by
  have hdecides := decides_of_unconstrained
    ⟨.array items, .array others, itemsNode own, policy⟩ (unconstrained_itemsNode hkey hcount)
    (.array hitems) (.inl (.array hothers))
  have hfree : ∀ j, Comparison.isFree (itemsNode own) j = true := by
    intro j
    change (own.anyOrder <|> some false).getD false = true
    rw [hown]
    rfl
  refine hdecides.congr ((Comparison.accepts_free_iff hfree hR).trans ?_)
  constructor
  · exact And.right
  · intro hdraws
    obtain ⟨l, hl, hsub⟩ := hdraws.assignable
    have hlen : items.length ≤ others.length := hl.length_eq ▸ hsub.length_le
    exact ⟨decide_eq_true hlen, hdraws⟩

/-- The call leaves the options of a node with overrides at all items. -/
theorem verdict_anyOrderItems (a : Assertion) (ha : a.options = {}) :
    a.verdict [anyOrderItems] =
      verdict ⟨a.expected, a.actual, itemsNode anyOrder, a.policy⟩ [] := by
  obtain ⟨expected, actual, options, policy⟩ := a
  obtain rfl : options = {} := ha
  simp only [verdict, anyOrderItems, direct, follow, PathArgument.paths, PathArgument.pathsOfAll,
    pathsOfValue, ofValue?_items]
  rfl

/-- The items draw from the actual array what meets them. -/
theorem decides_anyOrderItems (hitems : ∀ v ∈ items, v.IsDocument)
    (hothers : ∀ w ∈ others, w.IsDocument) :
    Decides { expected := .array items, actual := .array others, policy } [anyOrderItems]
      (Draws (Value.MetBy false) items others) := by
  have hitemsNode : Decides ⟨.array items, .array others, itemsNode anyOrder, policy⟩ []
      (Draws (Value.MetBy false) items others) :=
    decides_itemsNode rfl rfl rfl hitems hothers fun v hv w _ j =>
      Comparison.accepts_iff_metBy rfl rfl rfl (hitems v hv) (follows_element_itemsNode j)
  exact hitemsNode.of_options (verdict_anyOrderItems _ rfl)

/-- Expected scalars stand in for one another: those that one actual item meets are equal. -/
theorem exchangeable_of_isScalar {counted : Bool} (h : ∀ v ∈ items, v.isScalar = true) :
    Exchangeable (Value.MetBy counted) items others := by
  intro v hv w hw b _ c _ hvb hwb hvc
  rw [Value.metBy_scalar_iff (h v hv)] at hvb hvc
  rw [Value.metBy_scalar_iff (h w hw)] at hwb ⊢
  exact Value.sameScalar_trans hwb (Value.sameScalar_trans (Value.sameScalar_symm hvb) hvc)

/-- **When the order of the actual items does not matter.** With any order for the items of a root
array, an assertion gives a result, as long as no integer has too many digits. All orders of the
actual items give the same one just when no assignment gives each expected item one of its own that
meets it, or no item can be left without one by what the items before it take. Some order passes
just when there is such an assignment. So the order does not matter where any two expected items
that one actual item meets are met by the same. -/
theorem verdict_reordered (policy : SnapshotPolicy) {items others : List Value}
    (hitems : ∀ v ∈ items, v.IsDocument ∧ v.holdsLongInteger = false)
    (hothers : ∀ w ∈ others, w.IsDocument ∧ w.holdsLongInteger = false) :
    let verdict (ws : List Value) :=
      ({ expected := .array items, actual := .array ws, policy } : Assertion).verdict
        [anyOrderItems]
    let meets := Value.MetBy false
    (∀ ws, ws.Perm others → ∃ passes, verdict ws = .ok passes) ∧
      ((∀ ws, ws.Perm others → verdict ws = verdict others) ↔
        ¬ Assignable meets items others ∨ Unblocked meets items others) ∧
      ((∃ ws, ws.Perm others ∧ verdict ws = .ok true) ↔ Assignable meets items others) ∧
      (Exchangeable meets items others → ∀ ws, ws.Perm others → verdict ws = verdict others) := by
  intro verdict meets
  have hverdict : ∀ ws, ws.Perm others → ∃ passes, verdict ws = .ok passes ∧
      (passes = true ↔ Draws meets items ws) := fun ws hp =>
    (decides_anyOrderItems (fun v hv => (hitems v hv).1)
      fun w hw => (hothers w (hp.subset hw)).1).exists_verdict
      (Value.holdsLongInteger_array fun v hv => (hitems v hv).2)
      (Value.holdsLongInteger_array fun w hw => (hothers w (hp.subset hw)).2)
  have heq : ∀ ws, ws.Perm others →
      (verdict ws = verdict others ↔ (Draws meets items ws ↔ Draws meets items others)) := by
    intro ws hp
    obtain ⟨passes, hws, hpasses⟩ := hverdict ws hp
    obtain ⟨passes', hothers', hpasses'⟩ := hverdict others (.refl others)
    rw [hws, hothers', ← hpasses, ← hpasses', Except.ok.injEq, Bool.eq_iff_iff]
  refine ⟨fun ws hp => ?_, ?_, ?_, fun hex ws hp => ?_⟩
  · obtain ⟨passes, hws, -⟩ := hverdict ws hp
    exact ⟨passes, hws⟩
  · rw [← Comparison.forall_perm_draws_iff]
    exact forall₂_congr heq
  · rw [← Comparison.exists_perm_draws_iff]
    refine exists_congr fun ws => and_congr_right fun hp => ?_
    obtain ⟨passes, hws, hpasses⟩ := hverdict ws hp
    rw [hws, Except.ok.injEq, hpasses]
  · exact (heq ws hp).2 (hex.draws_perm_iff hp)

/-- Expected scalars, two of them equal: each order of the actual items passes. -/
theorem verdict_reordered_scalars :
    let items := [Value.int 1, .string "x", .int 1]
    let others := [Value.string "x", .int 1, .object [(.string "a", .null)], .int 1]
    (∀ v ∈ items, v.IsDocument ∧ v.holdsLongInteger = false) ∧
      (∀ w ∈ others, w.IsDocument ∧ w.holdsLongInteger = false) ∧
      ∀ ws, ws.Perm others →
        ({ expected := .array items, actual := .array ws } : Assertion).verdict [anyOrderItems] =
          .ok true := by
  intro items others
  have hitems : ∀ v ∈ items, v.IsDocument ∧ v.holdsLongInteger = false := by decide +kernel
  have hothers : ∀ w ∈ others, w.IsDocument ∧ w.holdsLongInteger = false := by decide +kernel
  have hscalars : ∀ v ∈ items, v.isScalar = true := by decide +kernel
  obtain ⟨-, -, -, hsame⟩ := verdict_reordered {} hitems hothers
  refine ⟨hitems, hothers, fun ws hp => ?_⟩
  refine (hsame (exchangeable_of_isScalar hscalars) ws hp).trans (eq_ok_of_toOption ?_)
  decide +kernel

/-- The first item takes what only the second could use, or leaves it. -/
theorem verdict_reordered_contended :
    let items := [Value.object [(.string "a", .int 1)],
      .object [(.string "a", .int 1), (.string "b", .int 2)]]
    let others := [Value.object [(.string "a", .int 1), (.string "b", .int 2)],
      .object [(.string "a", .int 1)]]
    (∀ v ∈ items, v.IsDocument) ∧ (∀ w ∈ others, w.IsDocument) ∧ others.reverse.Perm others ∧
      ({ expected := .array items, actual := .array others } : Assertion).verdict
        [anyOrderItems] = .ok false ∧
      ({ expected := .array items, actual := .array others.reverse } : Assertion).verdict
        [anyOrderItems] = .ok true := by
  intro items others
  exact ⟨by decide +kernel, by decide +kernel, List.reverse_perm others,
    eq_ok_of_toOption (by decide +kernel), eq_ok_of_toOption (by decide +kernel)⟩

end Assertion

end JsonExpect
