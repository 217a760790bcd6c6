import JsonExpect.Proofs.Assertion.Reordering

/-!
# Scalars in any order

Expected scalars that may match in any order fall into classes: those of one value where values must
be equal, those of one kind where only types are compared. An item takes nothing outside its own
class, and whatever it takes there is as good as anything else, so drawing comes to counting: an
assertion passes just when no class has more items than there are in the actual array
(`Assertion.decides_scalars`). An item is held against others before it finds its own, so one of too
many digits can keep the assertion from a verdict (`Assertion.verdict_long_scalar`).
-/

namespace JsonExpect

namespace Value

theorem IsDocument.of_isScalar {v : Value} (h : v.isScalar = true) : v.IsDocument := by
  cases v with
  | bool b => exact .bool b
  | int n => exact .int n
  | float x => exact .float x
  | string s => exact .string s
  | _ => cases h

/-- A scalar equals itself, unless it is a double that is not a number. -/
theorem sameScalar_self {v : Value} (h : v.isScalar = true)
    (hnan : ∀ x, v = .float x → x.isNaN = false) : v.sameScalar v = true := by
  cases v with
  | float x => exact Binary64.same_iff.2 ⟨hnan x rfl, hnan x rfl, .inl rfl⟩
  | bool | int | string => exact sameScalar_iff.2 (.inl ⟨rfl, by simp⟩)
  | _ => cases h

end Value

namespace Comparison

variable {items : List Value}

/-- Scalars that must be equal, by their value. -/
theorem classified_sameScalar (hs : ∀ v ∈ items, v.isScalar = true)
    (hnan : ∀ x, .float x ∈ items → x.isNaN = false) :
    Classified Value.sameScalar (Value.MetBy false) items where
  disjoint _ _ _ _ hia hja hib :=
    Value.sameScalar_trans hja (Value.sameScalar_trans (Value.sameScalar_symm hia) hib)
  accepts v hv i hi a := by
    rw [Value.metBy_scalar_iff (hs v hv)]
    exact ⟨Value.sameScalar_trans hi, Value.sameScalar_trans (Value.sameScalar_symm hi)⟩
  covered v hv := ⟨v, Value.sameScalar_self (hs v hv) fun x hx => hnan x (hx ▸ hv)⟩

/-- Scalars of which only the type counts, by their kind. -/
theorem classified_kind (hs : ∀ v ∈ items, v.isScalar = true) :
    Classified (fun (k : Kind) v => v.kind? = some k) (fun v w => v.kind? = w.kind?) items where
  disjoint i j a b hia hja hib := by
    have hij : some i = some j := (of_decide_eq_true hia).symm.trans (of_decide_eq_true hja)
    obtain rfl := Option.some.inj hij
    exact hib
  accepts v _ i hi a := by
    rw [of_decide_eq_true hi, decide_eq_true_iff]
    exact eq_comm
  covered v hv := by
    obtain ⟨k, hk⟩ := Option.isSome_iff_exists.1 (Value.isSome_kind?_of_isScalar (hs v hv))
    exact ⟨k, decide_eq_true hk⟩

end Comparison

namespace Assertion

open Comparison (Draws)

/-- The call that compares the types of all items of the root array only. -/
def typeMatchItems : Directive × List PathArgument :=
  (.scoped .typeMatch .singleNode, [.value (.string "[*]")])

/-- What both calls set at each item. -/
def anyTypeMatch : Overrides := { anyOrder := some true, exactMatch := some false }

variable {policy : SnapshotPolicy} {items others : List Value}

/-- Where only types are compared, a scalar is accepted in place of any of its kind. -/
theorem accepts_anyTypeMatch_iff {base : Location} {v w : Value} (hs : v.isScalar = true)
    (j : Nat) :
    Comparison.Accepts policy base (Comparison.element (itemsNode anyTypeMatch) j) v w ↔
      v.kind? = w.kind? := by
  rw [Comparison.Accepts, Comparison.compare_of_isScalar hs,
    Comparison.failures_compareLeaf_iff (Value.isSome_kind?_of_isScalar hs)]
  refine and_iff_left ?_
  change (v.sameScalar w || true) = true
  exact Bool.or_true _

/-- Items of which only the types count draw from the actual array by kind, whichever of the two
calls comes first. -/
theorem decides_typeMatchItems (hs : ∀ v ∈ items, v.isScalar = true)
    (hothers : ∀ w ∈ others, w.IsDocument) {calls : List (Directive × List PathArgument)}
    (hcalls : calls = [anyOrderItems, typeMatchItems] ∨ calls = [typeMatchItems, anyOrderItems]) :
    Decides { expected := .array items, actual := .array others, policy } calls
      (Draws (fun v w => v.kind? = w.kind?) items others) := by
  have hitemsNode : Decides ⟨.array items, .array others, itemsNode anyTypeMatch, policy⟩ []
      (Draws (fun v w => v.kind? = w.kind?) items others) :=
    decides_itemsNode rfl rfl rfl (fun v hv => .of_isScalar (hs v hv)) hothers
      fun v hv _ _ j => accepts_anyTypeMatch_iff (hs v hv) j
  refine hitemsNode.of_options ?_
  obtain rfl | rfl := hcalls
  all_goals
    simp only [verdict, anyOrderItems, typeMatchItems, direct, follow, PathArgument.paths,
      PathArgument.pathsOfAll, pathsOfValue, ofValue?_items]
    rfl

/-- **Scalars in any order are counted.** On an expected array of scalars, none of them a double
that is not a number, an assertion that lets the items match in any order decides whether no value
stands in the expected array more often than in the actual one. Where in addition only types are
compared, it decides whether no kind does. -/
theorem decides_scalars (policy : SnapshotPolicy) {items others : List Value}
    (hs : ∀ v ∈ items, v.isScalar = true) (hnan : ∀ x, .float x ∈ items → x.isNaN = false)
    (hothers : ∀ w ∈ others, w.IsDocument) :
    Decides { expected := .array items, actual := .array others, policy } [anyOrderItems]
        (∀ v : Value, items.countP v.sameScalar ≤ others.countP v.sameScalar) ∧
      ∀ calls, calls = [anyOrderItems, typeMatchItems] ∨ calls = [typeMatchItems, anyOrderItems] →
        Decides { expected := .array items, actual := .array others, policy } calls
          (∀ k : Kind,
            items.countP (fun v => v.kind? = some k) ≤
              others.countP fun w => w.kind? = some k) := by
  refine ⟨?_, fun calls hcalls => ?_⟩
  · exact (decides_anyOrderItems (fun v hv => .of_isScalar (hs v hv)) hothers).congr
      (Comparison.classified_sameScalar hs hnan).draws_iff
  · exact (decides_typeMatchItems hs hothers hcalls).congr
      (Comparison.classified_kind hs).draws_iff

/-- A value that stands there twice, and zeros of either sign; with one of the two replaced, only
the types are still there. -/
theorem decides_scalars_repeated :
    let items := [Value.int 1, .string "x", .float (.zero false), .int 1]
    let others (n : Int) := [Value.float (.zero true), .int 1,
      .object [(.string "a", .null)], .string "x", .int n, .bool true]
    let verdict (n : Int) :=
      ({ expected := .array items, actual := .array (others n) } : Assertion).verdict
    (∀ v ∈ items, v.isScalar = true) ∧ (∀ x, .float x ∈ items → x.isNaN = false) ∧
      (∀ w ∈ others 1, w.IsDocument) ∧ (∀ w ∈ others 2, w.IsDocument) ∧
      verdict 1 [anyOrderItems] = .ok true ∧
      (∀ v : Value, items.countP v.sameScalar ≤ (others 1).countP v.sameScalar) ∧
      verdict 2 [anyOrderItems] = .ok false ∧
      verdict 2 [typeMatchItems, anyOrderItems] = .ok true ∧
      ∀ k : Kind, items.countP (fun v => v.kind? = some k) ≤
        (others 2).countP fun w => w.kind? = some k := by
  intro items others verdict
  have hs : ∀ v ∈ items, v.isScalar = true := by decide +kernel
  have hnan : ∀ x, .float x ∈ items → x.isNaN = false := by
    intro x hx
    obtain rfl : x = .zero false := by simpa [items] using hx
    decide +kernel
  have hothers : ∀ w ∈ others 1, w.IsDocument := by decide +kernel
  have hothers' : ∀ w ∈ others 2, w.IsDocument := by decide +kernel
  have htrue : verdict 1 [anyOrderItems] = .ok true := eq_ok_of_toOption (by decide +kernel)
  have hfalse : verdict 2 [anyOrderItems] = .ok false := eq_ok_of_toOption (by decide +kernel)
  have htypes : verdict 2 [typeMatchItems, anyOrderItems] = .ok true :=
    eq_ok_of_toOption (by decide +kernel)
  have hcounted := (decides_scalars {} hs hnan hothers).1.verdict _ htrue
  have hkinds := ((decides_scalars {} hs hnan hothers').2 _ (.inr rfl)).verdict _ htypes
  exact ⟨hs, hnan, hothers, hothers', htrue, hcounted.1 rfl, hfalse, htypes, hkinds.1 rfl⟩

/-- An integer of too many digits that stands second in the actual array: it is there as often as it
has to be, but the first trial cannot be written. -/
theorem verdict_long_scalar :
    ∃ items others : List Value,
      items = [.int (Nat.pow 10 longestNumeral)] ∧ others = .int 1 :: items ∧
      (∀ v ∈ items, v.isScalar = true) ∧ (∀ w ∈ others, w.IsDocument) ∧
      (∀ v : Value, items.countP v.sameScalar ≤ others.countP v.sameScalar) ∧
      ∀ policy, ({ expected := .array items, actual := .array others, policy } :
        Assertion).verdict [anyOrderItems] = .error (.obstacle .longInteger) := by
  obtain ⟨i, hi, hlong⟩ := exists_hasLongNumeral
  rw [← hi]
  have hdocs : ∀ w ∈ [Value.int 1, .int i], w.IsDocument :=
    List.forall_mem_cons.2 ⟨.int 1, List.forall_mem_singleton.2 (.int i)⟩
  refine ⟨_, _, rfl, rfl, List.forall_mem_singleton.2 rfl, hdocs,
    fun v => (List.sublist_cons_self _ _).countP_le, fun policy => ?_⟩
  have hitems : (Value.array [.int i]).IsDocument := .array (List.forall_mem_singleton.2 (.int i))
  have hobstacle : (Comparison.compare policy [] (itemsNode anyOrder) (.array [.int i])
      (.array [.int 1, .int i])).obstacle = some .longInteger :=
    Comparison.obstacle_of_refused_trial hlong rfl rfl rfl rfl rfl
  rw [verdict_anyOrderItems _ rfl]
  exact verdict_of_obstacle ⟨_, _, itemsNode anyOrder, policy⟩ (unconstrained_itemsNode rfl rfl)
    hitems (.inl (.array hdocs)) hobstacle

end Assertion

end JsonExpect
