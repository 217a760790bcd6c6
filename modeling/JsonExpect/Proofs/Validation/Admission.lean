import JsonExpect.Proofs.Options.Log
import JsonExpect.Proofs.Validation.Acceptance
import JsonExpect.Proofs.Validation.Constraints

/-!
# What validations admit where order is kept

Where no element may match in any order, an option tree says layer by layer which actual value does
for an expected one: `Node.Admits` is that relation, with the rules of each location but without
locations, snapshots and counterparts that are looked for. A comparison accepts just what is
admitted (`Comparison.accepts_iff_admits`). A validation passes when it gives a result that is
valid, which is when the constraints find nothing and the comparison accepts (`passes_iff`).
-/

namespace JsonExpect

namespace Node

/-- No names lead to a node where a flag holds. -/
def Never (node : Node) (f : Flag) : Prop := ∀ names, (node.resolveAll names).flag f = false

theorem Never.here {node : Node} {f : Flag} (h : node.Never f) : node.flag f = false := h []

theorem Never.resolve {node : Node} {f : Flag} (h : node.Never f) (name : String) :
    (node.resolve name).Never f := fun names => h (name :: names)

/-- A flag that is off at the beginning and that no call sets holds nowhere. -/
theorem never_configured {calls : List Call} {f : Flag} (hl : ∀ c ∈ calls, c.path.Legible)
    (hoff : ({} : Bundle).get f = some false) (hcalls : ∀ c ∈ calls, c.setting ≠ .flag f true) :
    (configured calls).Never f := by
  intro names
  have hown : ((configured calls).resolveAll names).own.get f ≠ some true := by
    intro hset
    have hsetting : ((configured calls).resolveAll names).own.setting? (.flag f) =
        some (.flag f true) := congrArg (Option.map (Setting.flag f)) hset
    obtain ⟨c, hc, hs⟩ := exists_call_of_own hl hsetting
    exact hcalls c hc hs
  have hdefaults : ((configured calls).resolveAll names).defaults.get f ≠ some true := by
    intro hset
    obtain ⟨c, hc, on, hs, hon⟩ := exists_call_of_defaults hl (by rw [hset, hoff]; simp)
    obtain rfl : on = true := Option.some.inj (hon.symm.trans hset)
    exact hcalls c hc hs
  unfold flag flag?
  cases hset : ((configured calls).resolveAll names).own.get f with
  | some on =>
    cases on with
    | false => rfl
    | true => exact absurd hset hown
  | none =>
    cases hdef : ((configured calls).resolveAll names).defaults.get f with
    | none => rfl
    | some on =>
      cases on with
      | false => rfl
      | true => exact absurd hdef hdefaults

/-- What an option tree admits in place of an expected value, where order is kept. -/
inductive Admits : Node → Value → Value → Prop where
  /-- A null asks for nothing, not even that there be a value. -/
  | null (node : Node) (actual : Value) : Admits node .null actual
  | scalar {node : Node} {expected actual : Value} (isScalar : expected.isScalar = true)
      (kind : expected.kind? = actual.kind?)
      (value : node.admitsScalar (expected.sameScalar actual) = true) :
      Admits node expected actual
  | array {node : Node} {items others : List Value}
      (size : node.agrees items.length others.length = true)
      (all : ∀ i (h : i < items.length) (h' : i < others.length),
        Admits (node.resolveKey (.int ↑i)) items[i] others[i]) :
      Admits node (.array items) (.array others)
  | object {node : Node} {members others : List (Key × Value)}
      (size : node.agrees members.length others.length = true)
      (all : ∀ m ∈ members, Admits (node.resolveKey m.1) m.2 ((Value.object others).entry m.1)) :
      Admits node (.object members) (.object others)

variable {node : Node} {expected actual : Value}

theorem admits_scalar_iff (hs : expected.isScalar = true) :
    node.Admits expected actual ↔
      expected.kind? = actual.kind? ∧
        node.admitsScalar (expected.sameScalar actual) = true := by
  constructor
  · intro h
    cases h with
    | scalar _ kind value => exact ⟨kind, value⟩
    | _ => cases hs
  · rintro ⟨kind, value⟩
    exact .scalar hs kind value

theorem admits_array_iff {items others : List Value} :
    node.Admits (.array items) (.array others) ↔
      node.agrees items.length others.length = true ∧
        ∀ i (h : i < items.length) (h' : i < others.length),
          Admits (node.resolveKey (.int ↑i)) items[i] others[i] := by
  constructor
  · intro h
    cases h with
    | scalar isScalar => cases isScalar
    | array size all => exact ⟨size, all⟩
  · rintro ⟨size, all⟩
    exact .array size all

theorem admits_object_iff {members others : List (Key × Value)} :
    node.Admits (.object members) (.object others) ↔
      node.agrees members.length others.length = true ∧
        ∀ m ∈ members,
          Admits (node.resolveKey m.1) m.2 ((Value.object others).entry m.1) := by
  constructor
  · intro h
    cases h with
    | scalar isScalar => cases isScalar
    | object size all => exact ⟨size, all⟩
  · rintro ⟨size, all⟩
    exact .object size all

/-- Something is admitted in place of a value of its own kind only, or of a null. -/
theorem Admits.kind?_eq (h : node.Admits expected actual) (hn : expected ≠ .null) :
    expected.kind? = actual.kind? := by
  cases h with
  | null => exact absurd rfl hn
  | scalar _ kind _ => exact kind
  | array _ _ => rfl
  | object _ _ => rfl

/-- Only a null is content with nothing. -/
theorem Admits.eq_null (h : node.Admits expected .missing) : expected = .null := by
  cases h with
  | null => rfl
  | scalar isScalar kind _ =>
    have hk := Value.isSome_kind?_of_isScalar isScalar
    rw [kind] at hk
    cases hk

end Node

namespace Comparison

variable {policy : SnapshotPolicy} {expected : Value}

/-- Where order is kept, a comparison with an expected document accepts what is admitted. -/
theorem accepts_iff_admits (hdoc : expected.IsDocument) :
    ∀ {base node actual}, Node.Never node .anyOrder →
      (Accepts policy base node expected actual ↔ node.Admits expected actual) := by
  have hscalar : ∀ v : Value, v.isScalar = true → ∀ {base node actual},
      Accepts policy base node v actual ↔ node.Admits v actual := by
    intro v hs base node actual
    rw [Accepts, compare_of_isScalar hs,
      failures_compareLeaf_iff (Value.isSome_kind?_of_isScalar hs), Node.admits_scalar_iff hs]
  induction hdoc with
  | null => exact fun _ => iff_of_true rfl (.null _ _)
  | bool v => exact fun _ => hscalar (.bool v) rfl
  | int v => exact fun _ => hscalar (.int v) rfl
  | float v => exact fun _ => hscalar (.float v) rfl
  | string v => exact fun _ => hscalar (.string v) rfl
  | @array items _ ih =>
    intro base node actual horder
    by_cases hk : (Value.array items).kind? = actual.kind?
    · obtain ⟨others, rfl⟩ := Value.exists_array_of_kind? hk
      have hfixed : ∀ j, isFree node j = false := fun j => horder [toString j]
      rw [accepts_ordered_iff hfixed, Node.admits_array_iff]
      refine and_congr_right fun _ => forall_congr' fun j => forall₂_congr fun h _ => ?_
      exact ih _ (List.getElem_mem h) (horder.resolve (toString j))
    · exact iff_of_false (fun h => hk (kind?_eq_of_accepts rfl h))
        fun h => hk (h.kind?_eq (by simp))
  | @object members strings _ _ ih =>
    intro base node actual horder
    by_cases hk : (Value.object members).kind? = actual.kind?
    · obtain ⟨others, rfl⟩ := Value.exists_object_of_kind? hk
      rw [accepts_object_iff, Node.admits_object_iff]
      refine and_congr_right fun _ => forall₂_congr fun m hm => ?_
      obtain ⟨s, hs⟩ := strings m hm
      rw [hs]
      exact ih m hm (horder.resolve s)
    · exact iff_of_false (fun h => hk (kind?_eq_of_accepts rfl h))
        fun h => hk (h.kind?_eq (by simp))

end Comparison

namespace Findings

theorem eq_empty_iff {a : Findings} : a = ∅ ↔ a.failures = [] ∧ a.obstacle = none := by
  obtain ⟨failures, obstacle⟩ := a
  constructor
  · intro h
    exact ⟨congrArg Findings.failures h, congrArg Findings.obstacle h⟩
  · rintro ⟨hfailures, hobstacle⟩
    exact congrArg₂ Findings.mk hfailures hobstacle

theorem append_eq_empty_iff {a b : Findings} : a ++ b = ∅ ↔ a = ∅ ∧ b = ∅ := by
  have hobstacle : (a.obstacle <|> b.obstacle) = none ↔ a.obstacle = none ∧ b.obstacle = none :=
    Option.orElse_eq_none ..
  simp only [eq_empty_iff, failures_append, obstacle_append, List.append_eq_nil_iff, hobstacle]
  tauto

end Findings

/-- A step of a walk that cannot be written gives rise to a failure. -/
theorem Node.hidesAt_eq_false {policy : SnapshotPolicy} {node : Node} {actual : Value} {x : Visit}
    (h : node.constraintFailure? policy [] actual x = none) : node.hidesAt actual x = false := by
  cases x with
  | enter l =>
    rw [constraintFailure?, keyFailure?] at h
    rw [hidesAt, hidesKey]
    split at h
    · cases habsent : (node.along l).flag .keyMustBeAbsent with
      | false => exact Bool.false_and _
      | true =>
        rw [habsent, if_pos rfl] at h
        cases h
    · rfl
  | leave l =>
    rw [constraintFailure?, countFailure?] at h
    rw [hidesAt, hidesCount]
    cases hcount : (node.along l).elementCount with
    | none => rfl
    | some n =>
      rw [hcount] at h
      simp only at h
      split at h
      · split at h
        · next heq => simp [heq]
        · cases h
      · cases h

/-- The constraints find nothing where no step of a walk gives rise to a failure. -/
theorem Constraints.check_eq_empty_iff {policy : SnapshotPolicy} {node : Node} {actual : Value}
    (hactual : actual.IsDocument) :
    check policy [] node actual = ∅ ↔
      ∀ x ∈ actual.visits, node.constraintFailure? policy [] actual x = none := by
  rw [check_eq policy node hactual, Findings.eq_empty_iff, List.filterMap_eq_nil_iff]
  refine and_iff_left_of_imp fun hquiet => ?_
  have hshown : actual.visits.any (node.hidesAt actual) = false :=
    List.any_eq_false.2 fun x hx => by simp [Node.hidesAt_eq_false (hquiet x hx)]
  rw [if_neg (by simp [hshown])]

/-- A validation that gives a result, and a valid one. -/
def Passes (policy : SnapshotPolicy) (node : Node) (expected actual : Value) : Prop :=
  ∃ r, validate policy node expected actual = .ok r ∧ r.isValid = true

section Passes

variable {policy : SnapshotPolicy} {node : Node} {expected actual : Value}

theorem passes_iff_findings :
    Passes policy node expected actual ↔ findings policy node expected actual = ∅ := by
  unfold Passes
  simp only [validate_eq_ok_iff, Findings.eq_empty_iff, Result.isValid]
  constructor
  · rintro ⟨r, ⟨hobstacle, rfl⟩, hvalid⟩
    exact ⟨List.isEmpty_iff.1 hvalid, hobstacle⟩
  · rintro ⟨hfailures, hobstacle⟩
    exact ⟨_, ⟨hobstacle, rfl⟩, List.isEmpty_iff.2 hfailures⟩

/-- Where order is kept, a validation against a document passes when the constraints find nothing
and the comparison accepts. -/
theorem passes_iff (hexpected : expected.IsDocument) (horder : node.Never .anyOrder) :
    Passes policy node expected actual ↔
      Constraints.check policy [] node actual = ∅ ∧
        Comparison.Accepts policy [] node expected actual := by
  rw [passes_iff_findings, findings, Findings.append_eq_empty_iff]
  refine and_congr_right fun _ => ?_
  have hkeeps : node.KeepsOrder expected := fun l hl _ => by
    rw [Node.along_eq_resolveAll (hexpected.writable hl)]
    exact horder _
  exact ⟨fun h => congrArg Findings.failures h, Comparison.compare_eq_empty hexpected hkeeps⟩

/-- Where nothing is expected, the constraints alone decide. -/
theorem passes_missing_iff :
    Passes policy node .missing actual ↔ Constraints.check policy [] node actual = ∅ := by
  rw [passes_iff_findings, findings, Findings.append_eq_empty_iff]
  exact ⟨And.left, fun h => ⟨h, rfl⟩⟩

end Passes

end JsonExpect
