import Mathlib.Data.List.GetD
import JsonExpect.Proofs.Validation.Exactness
import JsonExpect.Proofs.Validation.Matching
import JsonExpect.Proofs.Value.Sameness

/-!
# What comparisons accept

A comparison accepts when it reports nothing. Whether it does is said without locations and
snapshots: for arrays and objects by what it accepts inside them, and for whole documents, where the
option tree asks for the same everywhere, by a relation on documents. Where order is kept, a
document is accepted just when it meets the expected one (`accepts_iff_metBy`). Where collections
are counted and nothing expected is null, it is accepted just when it is the same, up to the order
of items if that is left open (`accepts_iff_same`). In the open case the elements draw from a pool,
and this finds an assignment whenever there is one because sameness is symmetric and transitive.
-/

namespace JsonExpect

/-- At a node and everywhere below it, the flags hold as in `b`. Whether a node itself may match in
any order is of no concern to what lies below it. -/
structure Node.Follows (node : Node) (b : Flag → Bool) : Prop where
  flag : ∀ (l : Location) (f : Flag), f ≠ .anyOrder → (node.along l).flag f = b f
  order : ∀ l : Location, l ≠ [] → (node.along l).flag .anyOrder = b .anyOrder

namespace Node

/-- Whether a node is content with two scalars of one kind that are equal, or not. -/
def admitsScalar (node : Node) (equal : Bool) : Bool :=
  if node.flag .valueNotEqual then !equal else equal || !node.flag .exactMatch

theorem le_of_agrees {node : Node} {m n : Nat} (h : node.agrees m n = true) : m ≤ n := by
  unfold agrees at h
  split at h <;> simp at h <;> omega

theorem Follows.resolveKey {node : Node} {b : Flag → Bool} (h : node.Follows b) (k : Key) :
    (node.resolveKey k).Follows b where
  flag l f hf := h.flag (k :: l) f hf
  order l _ := h.order (k :: l) (List.cons_ne_nil k l)

theorem Follows.agrees_iff {node : Node} {b : Flag → Bool} (h : node.Follows b) (m n : Nat) :
    node.agrees m n = true ↔ if b .equalCount then m = n else m ≤ n := by
  have hcount : node.flag .equalCount = b .equalCount := h.flag [] .equalCount (by simp)
  rw [agrees, hcount]
  cases b .equalCount <;> simp

/-- Where nothing has been set below a node, only its bundle is read below it. -/
theorem along_bare (l : Location) {node : Node} (hc : node.children = [])
    (ht : node.template = none) (hl : l ≠ []) :
    (node.along l).own = {} ∧ (node.along l).defaults = node.defaults := by
  induction l generalizing node with
  | nil => exact absurd rfl hl
  | cons k l ih =>
    have hr : ∃ name, node.resolveKey k = ⟨name, node.defaults, {}, [], none⟩ := by
      unfold resolveKey
      split
      · exact ⟨none, rfl⟩
      · exact ⟨some k.display, by simp only [resolve, child?, hc, ht, List.lookup_nil]⟩
    obtain ⟨name, hr⟩ := hr
    rw [along_cons, hr]
    cases l with
    | nil => exact ⟨rfl, rfl⟩
    | cons j l => exact ih rfl rfl (List.cons_ne_nil j l)

theorem flag_of_own_empty {node : Node} (ho : node.own = {}) (f : Flag) :
    node.flag f = (node.defaults.get f).getD false := by
  have hnone : ({} : Overrides).get f = none := by cases f <;> rfl
  rw [flag, flag?, ho, hnone]
  rfl

/-- A node below which nothing has been set is followed by all that lies below it. -/
theorem follows_of_bare {node : Node} {b : Flag → Bool} (hc : node.children = [])
    (ht : node.template = none) (hd : ∀ f, (node.defaults.get f).getD false = b f)
    (hf : ∀ f, f ≠ .anyOrder → node.flag f = b f) : node.Follows b := by
  have hbelow : ∀ l : Location, l ≠ [] → ∀ f, (node.along l).flag f = b f := by
    intro l hl f
    obtain ⟨ho, hdefaults⟩ := along_bare l hc ht hl
    rw [flag_of_own_empty ho, hdefaults, hd f]
  refine ⟨fun l f hne => ?_, fun l hl => hbelow l hl _⟩
  cases l with
  | nil => exact hf f hne
  | cons k l => exact hbelow _ (List.cons_ne_nil k l) f

end Node

namespace Comparison

variable {policy : SnapshotPolicy} {base : Location} {node : Node} {expected actual : Value}

/-- A comparison that reports nothing. -/
def Accepts (policy : SnapshotPolicy) (base : Location) (node : Node) (expected actual : Value) :
    Prop :=
  (compare policy base node expected actual).failures = []

instance : Decidable (Accepts policy base node expected actual) :=
  inferInstanceAs (Decidable (_ = []))

/-! ## One layer at a time -/

theorem failures_report_ne_nil (reason : Reason) (side side' : Option (Except Obstacle String)) :
    (Findings.report policy base reason side side').failures ≠ [] :=
  List.cons_ne_nil _ _

theorem compareLeaf_kind_ne (h : expected.kind? ≠ actual.kind?) :
    (compareLeaf policy base node expected actual).failures ≠ [] := by
  unfold compareLeaf
  split
  · exact failures_report_ne_nil _ _ _
  · rw [if_neg (by simp [h])]
    exact failures_report_ne_nil _ _ _

/-- A scalar is accepted in place of one of its kind, if the node is content with it. -/
theorem failures_compareLeaf_iff (hk : expected.kind?.isSome) :
    (compareLeaf policy base node expected actual).failures = [] ↔
      expected.kind? = actual.kind? ∧ node.admitsScalar (expected.sameScalar actual) = true := by
  by_cases h : expected.kind? = actual.kind?
  · have hm : actual.isMissing = false := by
      cases actual with
      | missing => rw [h] at hk; cases hk
      | _ => rfl
    have hkind : (expected.kind?.isSome && decide (expected.kind? = actual.kind?)) = true := by
      rw [hk, Bool.true_and, decide_eq_true h]
    have hreported : ∀ reason, (mismatch policy base reason expected actual).failures ≠ [] :=
      fun reason => failures_report_ne_nil reason _ _
    unfold compareLeaf compareScalars Node.admitsScalar
    rw [hm, if_neg (by simp), if_pos hkind]
    cases node.flag .valueNotEqual <;> cases node.flag .exactMatch <;>
      cases expected.sameScalar actual <;> simp [h, hreported]
  · exact iff_of_false (compareLeaf_kind_ne h) fun hboth => h hboth.1

/-- Scalars that must be equal are accepted when they are. -/
theorem compareLeaf_accepts_iff (hk : expected.kind?.isSome) (he : node.flag .exactMatch = true)
    (hv : node.flag .valueNotEqual = false) :
    (compareLeaf policy base node expected actual).failures = [] ↔
      expected.sameScalar actual = true := by
  rw [failures_compareLeaf_iff hk, Node.admitsScalar, hv, he]
  simp only [Bool.false_eq_true, if_false, Bool.not_true, Bool.or_false]
  exact ⟨And.right, fun hs => ⟨Value.kind?_of_sameScalar hs, hs⟩⟩

theorem failures_compareMembers_iff {ms others : List (Key × Value)} :
    (compareMembers policy base node ms others).failures = [] ↔
      ∀ m ∈ ms, Accepts policy (base ++ [m.1]) (node.resolveKey m.1) m.2
        ((Value.object others).entry m.1) := by
  induction ms with
  | nil => simp [compareMembers]
  | cons m ms ih =>
    rw [compareMembers, Findings.failures_append, Findings.failures_append, Findings.failures_met,
      List.nil_append, List.append_eq_nil_iff, ih, List.forall_mem_cons]
    exact Iff.rfl

theorem countViolation?_eq_none_iff {m n : Nat} :
    node.countViolation? m n = none ↔ node.agrees m n = true := by
  rw [Node.countViolation?_eq]
  cases node.agrees m n with
  | true => simp
  | false =>
    rw [if_neg (by simp)]
    split <;> simp

/-- A collection is accepted in place of one of its own kind only. -/
theorem kind?_eq_of_accepts (hc : expected.isCollection = true)
    (h : Accepts policy base node expected actual) : expected.kind? = actual.kind? := by
  by_contra hk
  rw [Accepts, compare_eq_compareLeaf hc hk] at h
  exact compareLeaf_kind_ne hk h

/-- An object is accepted that has as many members as asked for, each acceptable in its place. -/
theorem accepts_object_iff {members others : List (Key × Value)} :
    Accepts policy base node (.object members) (.object others) ↔
      node.agrees members.length others.length = true ∧
        ∀ m ∈ members, Accepts policy (base ++ [m.1]) (node.resolveKey m.1) m.2
          ((Value.object others).entry m.1) := by
  rw [← countViolation?_eq_none_iff, Accepts, compare]
  cases node.countViolation? members.length others.length with
  | some reason => exact iff_of_false (failures_report_ne_nil _ _ _) (by simp)
  | none => simp only [true_and, failures_compareMembers_iff]

/-- An array is accepted that has as many items as asked for, where both rounds report nothing. -/
theorem accepts_array_iff {items others : List Value} :
    Accepts policy base node (.array items) (.array others) ↔
      node.agrees items.length others.length = true ∧
        (compareFixed policy base node 0 items others).failures = [] ∧
        (compareFree policy base node 0 items (pool node items.length 0 others)).failures = [] := by
  rw [← countViolation?_eq_none_iff, Accepts, compare]
  cases node.countViolation? items.length others.length with
  | some reason => exact iff_of_false (failures_report_ne_nil _ _ _) (by simp)
  | none => simp only [true_and, Findings.failures_append, List.append_eq_nil_iff]

/-! ## Arrays in order -/

/-- Where all positions are fixed, the items are compared with what stands there. -/
theorem failures_compareFixed_iff {vs others : List Value} {i : Nat}
    (hfixed : ∀ j, isFree node j = false) :
    (compareFixed policy base node i vs others).failures = [] ↔
      ∀ j (h : j < vs.length), Accepts policy (base ++ [.int ↑(i + j)]) (element node (i + j)) vs[j]
        (others.getD j .missing) := by
  induction vs generalizing i others with
  | nil => simp [compareFixed]
  | cons v vs ih =>
    have hhead : others.headD .missing = others.getD 0 .missing := by cases others <;> rfl
    have htail : ∀ j, others.tail.getD j .missing = others.getD (j + 1) .missing := by
      intro j
      cases others <;> rfl
    rw [compareFixed, hfixed, if_neg (by simp), Findings.failures_append, List.append_eq_nil_iff,
      ih]
    constructor
    · rintro ⟨hv, hvs⟩ j hj
      cases j with
      | zero => rw [← hhead]; exact hv
      | succ j =>
        rw [← htail, show i + (j + 1) = i + 1 + j by omega]
        exact hvs j (by simpa using hj)
    · intro h
      refine ⟨hhead ▸ h 0 (by simp), fun j hj => ?_⟩
      have := h (j + 1) (by simpa using hj)
      rw [← htail, show i + (j + 1) = i + 1 + j by omega] at this
      exact this

/-- Two arrays whose positions are all fixed are compared item by item. -/
theorem accepts_ordered_iff {items others : List Value} (hfixed : ∀ j, isFree node j = false) :
    Accepts policy base node (.array items) (.array others) ↔
      node.agrees items.length others.length = true ∧
        ∀ j (h : j < items.length) (h' : j < others.length),
          Accepts policy (base ++ [.int ↑j]) (element node j) items[j] others[j] := by
  have hfree : compareFree policy base node 0 items (pool node items.length 0 others) = ∅ :=
    compareFree_of_fixed items _ 0 fun j _ => hfixed _
  rw [accepts_array_iff, hfree, failures_compareFixed_iff hfixed]
  simp only [Nat.zero_add, Findings.failures_empty, and_true]
  refine and_congr_right fun hsize => forall_congr' fun j => forall_congr' fun h => ?_
  have h' : j < others.length := Nat.lt_of_lt_of_le h (Node.le_of_agrees hsize)
  rw [List.getD_eq_getElem others .missing h']
  exact ⟨fun hj _ => hj, fun hj => hj h'⟩

/-! ## Arrays in any order -/

section Free

variable {R : Value → Value → Prop}

/-- Taking the first value that a trial accepts is drawing it. -/
theorem takeFirst_cases (trial : Value → Findings) (pool : List Value) :
    ((takeFirst trial pool).1 = none ∧ ∀ a ∈ pool, (trial a).failures ≠ []) ∨
      ∃ before b after, pool = before ++ b :: after ∧ (∀ a ∈ before, (trial a).failures ≠ []) ∧
        (trial b).failures = [] ∧ (takeFirst trial pool).1 = some (before ++ after) := by
  induction pool with
  | nil => exact .inl ⟨rfl, by simp⟩
  | cons a pool ih =>
    by_cases ha : (trial a).failures = []
    · refine .inr ⟨[], a, pool, rfl, by simp, ha, ?_⟩
      rw [takeFirst]
      simp [ha]
    · have htake : (takeFirst trial (a :: pool)).1 = (takeFirst trial pool).1.map (a :: ·) := by
        rw [takeFirst]
        simp [ha]
      rcases ih with ⟨hnone, hall⟩ | ⟨before, b, after, rfl, hbefore, hb, hsome⟩
      · exact .inl ⟨by rw [htake, hnone]; rfl, List.forall_mem_cons.2 ⟨ha, hall⟩⟩
      · exact .inr ⟨a :: before, b, after, rfl, List.forall_mem_cons.2 ⟨ha, hbefore⟩, hb,
          by rw [htake, hsome]; rfl⟩

/-- Where all items are free and what they accept does not hang on their positions, the second round
reports nothing just when they draw from the pool. -/
theorem failures_compareFree_iff {vs pool : List Value} {i : Nat}
    (hfree : ∀ j, isFree node j = true) (hR : ∀ v ∈ vs, ∀ a ∈ pool, ∀ j : Nat,
      Accepts policy (base ++ [.int ↑j]) (element node j) v a ↔ R v a) :
    (compareFree policy base node i vs pool).failures = [] ↔ Draws R vs pool := by
  induction vs generalizing i pool with
  | nil => exact iff_of_true rfl (.nil pool)
  | cons v vs ih =>
    have hv := fun a ha => hR v List.mem_cons_self a ha i
    rw [compareFree, if_pos (hfree i)]
    simp only [Findings.failures_append, Findings.failures_met, List.nil_append]
    rcases takeFirst_cases (compare policy (base ++ [.int ↑i]) (element node i) v) pool with
      ⟨hnone, hall⟩ | ⟨before, b, after, rfl, hbefore, hb, hsome⟩
    · rw [hnone]
      refine iff_of_false (failures_report_ne_nil _ _ _) fun hdraws => ?_
      obtain ⟨before, b, after, rfl, _, hvb, _⟩ := draws_cons_iff.1 hdraws
      exact hall b (by simp) ((hv b (by simp)).2 hvb)
    · have hpassed : ∀ a ∈ before, ¬ R v a := fun a ha hva =>
        hbefore a ha ((hv a (by simp [ha])).2 hva)
      have hrest : ∀ w ∈ vs, ∀ a ∈ before ++ after, ∀ j : Nat,
          Accepts policy (base ++ [.int ↑j]) (element node j) w a ↔ R w a := by
        intro w hw a ha j
        refine hR w (List.mem_cons_of_mem _ hw) a ?_ j
        exact ((List.sublist_cons_self b after).append_left before).subset ha
      rw [hsome]
      simp only
      rw [ih hrest, draws_first_iff hpassed ((hv b (by simp)).1 hb)]

theorem pool_of_free (hfree : ∀ j, isFree node j = true) (n i : Nat) (others : List Value) :
    pool node n i others = others := by
  induction others generalizing n i with
  | nil => rfl
  | cons w others ih => rw [pool, ih, if_pos (by rw [hfree, Bool.or_true])]

theorem failures_compareFixed_of_free (hfree : ∀ j, isFree node j = true) (i : Nat)
    (vs others : List Value) : (compareFixed policy base node i vs others).failures = [] := by
  induction vs generalizing i others with
  | nil => rfl
  | cons v vs ih => rw [compareFixed, if_pos (hfree i), Findings.failures_append, ih]; rfl

/-- Two arrays whose items are all free: each item draws from the whole actual array. -/
theorem accepts_free_iff {items others : List Value} (hfree : ∀ j, isFree node j = true)
    (hR : ∀ v ∈ items, ∀ a ∈ others, ∀ j : Nat,
      Accepts policy (base ++ [.int ↑j]) (element node j) v a ↔ R v a) :
    Accepts policy base node (.array items) (.array others) ↔
      node.agrees items.length others.length = true ∧ Draws R items others := by
  rw [accepts_array_iff, pool_of_free hfree, failures_compareFree_iff hfree hR]
  simp only [failures_compareFixed_of_free hfree, true_and]

end Free

/-! ## Documents -/

section Documents

variable {b : Flag → Bool}

theorem compare_of_isScalar (hs : expected.isScalar = true) :
    compare policy base node expected actual = compareLeaf policy base node expected actual := by
  cases expected <;> first | rfl | cases hs

/-- A scalar is accepted in place of an equal one, where values must be equal. -/
theorem accepts_scalar_iff (he : b .exactMatch = true) (hv : b .valueNotEqual = false)
    (hs : expected.isScalar = true) (hn : node.Follows b) :
    Accepts policy base node expected actual ↔ expected.sameScalar actual = true := by
  have hexact := hn.flag [] .exactMatch (by simp)
  have hdiffer := hn.flag [] .valueNotEqual (by simp)
  rw [Accepts, compare_of_isScalar hs]
  exact compareLeaf_accepts_iff (Value.isSome_kind?_of_isScalar hs) (hexact.trans he)
    (hdiffer.trans hv)

theorem isFree_of_follows (hn : node.Follows b) (j : Nat) : isFree node j = b .anyOrder :=
  hn.order [.int ↑j] (List.cons_ne_nil _ _)

theorem keepsOrder_of_follows (hn : node.Follows b) (ho : b .anyOrder = false)
    (expected : Value) : node.KeepsOrder expected := by
  intro l _ hindex
  cases l with
  | nil => cases hindex
  | cons k l => exact (hn.order (k :: l) (List.cons_ne_nil k l)).trans ho

theorem follows_element (hn : node.Follows b) (j : Nat) : (element node j).Follows b :=
  hn.resolveKey (.int ↑j)

/-- Two arrays in order, under flags that are followed. -/
theorem accepts_ordered_iff_of_follows {items others : List Value} (ho : b .anyOrder = false)
    (hn : node.Follows b) {P : Value → Value → Prop}
    (hP : ∀ v ∈ items, ∀ w ∈ others, ∀ j : Nat,
      Accepts policy (base ++ [.int ↑j]) (element node j) v w ↔ P v w) :
    Accepts policy base node (.array items) (.array others) ↔
      (if b .equalCount then items.length = others.length else items.length ≤ others.length) ∧
        ∀ j (h : j < items.length) (h' : j < others.length), P items[j] others[j] := by
  rw [accepts_ordered_iff fun j => (isFree_of_follows hn j).trans ho, hn.agrees_iff]
  refine and_congr_right fun _ => forall_congr' fun j => forall₂_congr fun h h' => ?_
  exact hP _ (List.getElem_mem h) _ (List.getElem_mem h') j

/-- Where order is kept and values must be equal, an actual value is accepted just when it meets the
expected document. -/
theorem accepts_iff_metBy (he : b .exactMatch = true) (hv : b .valueNotEqual = false)
    (ho : b .anyOrder = false) (hdoc : expected.IsDocument) :
    ∀ {policy base node actual}, node.Follows b →
      (Accepts policy base node expected actual ↔ expected.MetBy (b .equalCount) actual) := by
  have hscalar : ∀ v : Value, v.isScalar = true → ∀ {policy base node actual}, node.Follows b →
      (Accepts policy base node v actual ↔ v.MetBy (b .equalCount) actual) :=
    fun v hs _ _ _ _ hn => (accepts_scalar_iff he hv hs hn).trans (Value.metBy_scalar_iff hs).symm
  induction hdoc with
  | null => exact fun _ => iff_of_true rfl (.null _)
  | bool v => exact hscalar (.bool v) rfl
  | int v => exact hscalar (.int v) rfl
  | float v => exact hscalar (.float v) rfl
  | string v => exact hscalar (.string v) rfl
  | @array items _ ih =>
    intro policy base node actual hn
    by_cases hk : (Value.array items).kind? = actual.kind?
    · obtain ⟨others, rfl⟩ := Value.exists_array_of_kind? hk
      rw [Value.metBy_array_iff]
      exact accepts_ordered_iff_of_follows ho hn fun v hv w _ j => ih v hv (follows_element hn j)
    · exact iff_of_false (fun h => hk (kind?_eq_of_accepts rfl h)) fun h => hk (h.kind?_eq rfl)
  | @object members _ _ _ ih =>
    intro policy base node actual hn
    by_cases hk : (Value.object members).kind? = actual.kind?
    · obtain ⟨others, rfl⟩ := Value.exists_object_of_kind? hk
      rw [accepts_object_iff, hn.agrees_iff, Value.metBy_object_iff]
      exact and_congr_right fun _ => forall₂_congr fun m hm => ih m hm (hn.resolveKey m.1)
    · exact iff_of_false (fun h => hk (kind?_eq_of_accepts rfl h)) fun h => hk (h.kind?_eq rfl)

/-- Where collections are counted and values must be equal, a document is accepted in place of one
without nulls just when they are the same, up to the order of items if it is left open. -/
theorem accepts_iff_same (he : b .exactMatch = true) (hv : b .valueNotEqual = false)
    (hcount : b .equalCount = true) (hdoc : expected.IsDocument) (hnull : expected.NullFree) :
    ∀ {policy base node actual}, actual.IsDocument ∨ actual = .missing → node.Follows b →
      (Accepts policy base node expected actual ↔
        Value.Same (b .anyOrder) expected actual) := by
  have hscalar : ∀ v : Value, v.isScalar = true → ∀ {policy base node actual},
      actual.IsDocument ∨ actual = .missing → node.Follows b →
        (Accepts policy base node v actual ↔ Value.Same (b .anyOrder) v actual) :=
    fun v hs _ _ _ _ _ hn => (accepts_scalar_iff he hv hs hn).trans (Value.same_scalar_iff hs).symm
  induction hnull with
  | bool v => intro _ _ _ _; exact hscalar (.bool v) rfl
  | int v => intro _ _ _ _; exact hscalar (.int v) rfl
  | float v => intro _ _ _ _; exact hscalar (.float v) rfl
  | string v => intro _ _ _ _; exact hscalar (.string v) rfl
  | @array items _ ih =>
    intro policy base node actual ha hn
    by_cases hk : (Value.array items).kind? = actual.kind?
    · obtain ⟨others, rfl⟩ := Value.exists_array_of_kind? hk
      have hdocs := (ha.resolve_right (by simp)).items
      have hitem : ∀ v ∈ items, ∀ w ∈ others, ∀ j : Nat,
          Accepts policy (base ++ [.int ↑j]) (element node j) v w ↔ Value.Same (b .anyOrder) v w :=
        fun v hv w hw j => ih v hv (hdoc.items v hv) (.inl (hdocs w hw)) (follows_element hn j)
      cases ho : b .anyOrder with
      | false =>
        rw [ho] at hitem
        rw [Value.same_array_fixed_iff]
        exact (accepts_ordered_iff_of_follows ho hn hitem).trans (by rw [if_pos hcount])
      | true =>
        rw [ho] at hitem
        -- two items that are the same as a third are the same, so none can block another
        have hex : Exchangeable (Value.Same true) items others :=
          fun v _ w _ x _ y _ hvx hwx hvy => hwx.trans (hvx.symm.trans hvy)
        rw [accepts_free_iff (fun j => (isFree_of_follows hn j).trans ho) hitem, hn.agrees_iff,
          if_pos hcount, Value.same_array_loose_iff, hex.length_eq_and_draws_iff]
    · exact iff_of_false (fun h => hk (kind?_eq_of_accepts rfl h)) fun h => hk h.kind?_eq
  | @object members _ ih =>
    intro policy base node actual ha hn
    by_cases hk : (Value.object members).kind? = actual.kind?
    · obtain ⟨others, rfl⟩ := Value.exists_object_of_kind? hk
      have hothers := ha.resolve_right (by simp)
      rw [accepts_object_iff, hn.agrees_iff, if_pos hcount, Value.same_object_iff hdoc hothers]
      refine and_congr_right fun _ => forall₂_congr fun m hm => ?_
      exact ih m hm (hdoc.members.2.2 m hm) hothers.entry (hn.resolveKey m.1)
    · exact iff_of_false (fun h => hk (kind?_eq_of_accepts rfl h)) fun h => hk h.kind?_eq

end Documents

end Comparison

end JsonExpect
