import JsonExpect.Proofs.Validation.Admission

/-!
# Validations under easier options

One option tree relaxes another when, wherever names lead, it asks for no more: for equal values,
for equally many entries and for keys that are absent only where the other does, for a number of
entries only where the other asks for the same number, and for values that differ just where the
other does. The trees need not have the same shape. As long as order is kept in both, what passes
under a tree passes under one that relaxes it (`validate_relaxed`): what the one admits, the other
admits by induction, and what the one leaves unreported at a location, so does the other.
-/

namespace JsonExpect

namespace Node

/-- At the second node no more is asked for than at the first. -/
structure Eases (strict loose : Node) : Prop where
  valueNotEqual : loose.flag .valueNotEqual = strict.flag .valueNotEqual
  exactMatch : loose.flag .exactMatch = true → strict.flag .exactMatch = true
  equalCount : loose.flag .equalCount = true → strict.flag .equalCount = true
  keyMustBeAbsent : loose.flag .keyMustBeAbsent = true → strict.flag .keyMustBeAbsent = true
  elementCount : loose.elementCount = none ∨ loose.elementCount = strict.elementCount

/-- Wherever names lead, no more is asked for by the second tree than by the first. -/
def Relaxes (strict loose : Node) : Prop :=
  ∀ names, (strict.resolveAll names).Eases (loose.resolveAll names)

variable {strict loose : Node}

theorem Relaxes.resolve (h : strict.Relaxes loose) (name : String) :
    (strict.resolve name).Relaxes (loose.resolve name) := fun names => h (name :: names)

theorem Eases.agrees (h : strict.Eases loose) {m n : Nat} (hsize : strict.agrees m n = true) :
    loose.agrees m n = true := by
  have hle : m ≤ n := le_of_agrees hsize
  unfold Node.agrees at hsize ⊢
  split
  · next hloose =>
    rwa [if_pos (h.equalCount hloose)] at hsize
  · exact decide_eq_true hle

theorem Eases.admitsScalar (h : strict.Eases loose) {equal : Bool}
    (hvalue : strict.admitsScalar equal = true) : loose.admitsScalar equal = true := by
  unfold Node.admitsScalar at hvalue ⊢
  rw [h.valueNotEqual]
  cases hdiffer : strict.flag .valueNotEqual with
  | true => simpa [hdiffer] using hvalue
  | false =>
    cases hexact : loose.flag .exactMatch with
    | true => simpa [hdiffer, h.exactMatch hexact] using hvalue
    | false => simp

/-- What a tree admits, each tree that relaxes it admits. -/
theorem Admits.relax {expected actual : Value} (h : strict.Admits expected actual) :
    ∀ {loose}, expected.IsDocument → strict.Relaxes loose → loose.Admits expected actual := by
  induction h with
  | null node actual => exact fun _ _ => .null _ actual
  | scalar isScalar kind value =>
    intro loose _ hr
    exact .scalar isScalar kind ((hr []).admitsScalar value)
  | @array node items others size _ ih =>
    intro loose hexpected hr
    refine .array ((hr []).agrees size) fun i hi hi' => ?_
    exact ih i hi hi' (hexpected.items _ (List.getElem_mem hi)) (hr.resolve (toString i))
  | @object node members others size _ ih =>
    intro loose hexpected hr
    refine .object ((hr []).agrees size) fun m hm => ?_
    obtain ⟨s, hs⟩ := hexpected.members.1 m hm
    have hkey : (node.resolveKey m.1).Relaxes (loose.resolveKey m.1) := by
      rw [hs]
      exact hr.resolve s
    exact ih m hm (hexpected.members.2.2 m hm) hkey

section Constraints

variable {policy : SnapshotPolicy} {base : Location} {actual : Value} {l : Location}

theorem Eases.keyFailure?_eq_none (h : (strict.along l).Eases (loose.along l))
    (hnone : strict.keyFailure? policy base actual l = none) :
    loose.keyFailure? policy base actual l = none := by
  unfold keyFailure? at hnone ⊢
  split
  · next name hlast =>
    rw [hlast] at hnone
    by_cases habsent : (loose.along l).flag .keyMustBeAbsent = true
    · simp only [if_pos (h.keyMustBeAbsent habsent)] at hnone
      cases hnone
    · exact if_neg habsent
  · rfl

theorem Eases.countFailure?_eq_none (h : (strict.along l).Eases (loose.along l))
    (hnone : strict.countFailure? policy base actual l = none) :
    loose.countFailure? policy base actual l = none := by
  obtain hcount | hcount := h.elementCount
  · rw [countFailure?, hcount]
  · rw [← hnone, countFailure?, countFailure?, hcount]

end Constraints

end Node

/-- Where the constraints of a tree are met, those of each tree that relaxes it are. -/
theorem Constraints.check_relaxed {policy : SnapshotPolicy} {strict loose : Node}
    (hr : strict.Relaxes loose) {actual : Value} (hactual : actual.IsDocument)
    (h : check policy [] strict actual = ∅) : check policy [] loose actual = ∅ := by
  rw [check_eq_empty_iff hactual] at h ⊢
  intro x hx
  have hl : x.location ∈ actual.locations := (Value.mem_visits_iff hactual).1 hx
  have hwritable : ∀ k ∈ x.location, k.isWritable = true := hactual.writable hl
  have heases : (strict.along x.location).Eases (loose.along x.location) := by
    rw [Node.along_eq_resolveAll hwritable, Node.along_eq_resolveAll hwritable]
    exact hr _
  cases x with
  | enter l => exact heases.keyFailure?_eq_none (h _ hx)
  | leave l => exact heases.countFailure?_eq_none (h _ hx)

/-- **Relaxing keeps what passes.** Where order is kept in both trees, a validation that passes
under the one passes under the other, which relaxes it. -/
theorem validate_relaxed {policy : SnapshotPolicy} {strict loose : Node}
    (hstrict : strict.Never .anyOrder) (hloose : loose.Never .anyOrder)
    (hr : strict.Relaxes loose) {expected actual : Value}
    (hexpected : expected.IsDocument ∨ expected = .missing)
    (hactual : actual.IsDocument ∨ actual = .missing)
    (h : Passes policy strict expected actual) : Passes policy loose expected actual := by
  have hconstraints : Constraints.check policy [] strict actual = ∅ →
      Constraints.check policy [] loose actual = ∅ := by
    obtain hactual | rfl := hactual
    · exact Constraints.check_relaxed hr hactual
    · exact fun _ => rfl
  obtain hexpected | rfl := hexpected
  · obtain ⟨hcheck, haccepts⟩ := (passes_iff hexpected hstrict).1 h
    refine (passes_iff hexpected hloose).2 ⟨hconstraints hcheck, ?_⟩
    rw [Comparison.accepts_iff_admits hexpected hstrict] at haccepts
    rw [Comparison.accepts_iff_admits hexpected hloose]
    exact haccepts.relax hexpected hr
  · exact passes_missing_iff.2 (hconstraints (passes_missing_iff.1 h))

/-- A tree that has been set nowhere below its root and whose root asks for nothing relaxes every
tree that wants no values to differ. -/
theorem Node.relaxes_of_bare {strict loose : Node} (hequal : strict.Never .valueNotEqual)
    (ho : loose.own = {}) (hc : loose.children = []) (ht : loose.template = none)
    (hasks : ∀ f, loose.defaults.get f ≠ some true) : strict.Relaxes loose := by
  intro names
  obtain ⟨hown, hdefaults⟩ := resolveAll_bare names ho hc ht
  have hoff : ∀ f, (loose.resolveAll names).flag f = false := by
    intro f
    rw [flag_of_own_empty hown, hdefaults]
    cases hset : loose.defaults.get f with
    | none => rfl
    | some on =>
      cases on with
      | false => rfl
      | true => exact absurd hset (hasks f)
  have hask : ∀ f, (loose.resolveAll names).flag f = true →
      (strict.resolveAll names).flag f = true := by
    intro f hon
    rw [hoff f] at hon
    cases hon
  have hcount : (loose.resolveAll names).elementCount = none := by rw [elementCount, hown]
  exact ⟨(hoff _).trans (hequal names).symm, hask _, hask _, hask _, .inl hcount⟩

/-- A strict tree with children and a template, and one that has neither. -/
theorem validate_relaxed_types :
    let calls : List Call := [⟨.flag .equalCount true, .root, .subtree⟩,
      ⟨.elementCount 2, ⟨[.key "a"]⟩, .singleNode⟩,
      ⟨.flag .exactMatch false, ⟨[.key "a", .anyIndex]⟩, .singleNode⟩,
      ⟨.flag .keyMustBeAbsent true, ⟨[.key "b"]⟩, .singleNode⟩]
    let strict := Node.configured calls
    let loose := Node.configured [⟨.flag .exactMatch false, .root, .subtree⟩]
    let expected := Value.object [(.string "a", .array [.int 1, .null]), (.string "c", .int 0)]
    let actual := Value.object [(.string "c", .int 0), (.string "a", .array [.int 2, .bool true])]
    strict.Never .anyOrder ∧ loose.Never .anyOrder ∧ strict.Relaxes loose ∧ expected.IsDocument ∧
      actual.IsDocument ∧ Passes {} strict expected actual ∧ Passes {} loose expected actual := by
  intro calls strict loose expected actual
  have hcalls : ∀ f : Flag, f = .anyOrder ∨ f = .valueNotEqual →
      ∀ c ∈ calls, c.setting ≠ .flag f true := by
    rintro f (rfl | rfl) c hc <;> revert c <;> decide +kernel
  have hlegible : ∀ c ∈ calls, c.path.Legible := by decide +kernel
  have hstrict : strict.Never .anyOrder := Node.never_configured hlegible rfl (hcalls _ (.inl rfl))
  have hequal : strict.Never .valueNotEqual :=
    Node.never_configured hlegible rfl (hcalls _ (.inr rfl))
  have hloose : loose.Never .anyOrder :=
    Node.never_configured (by decide +kernel) rfl (by decide +kernel)
  have hr : strict.Relaxes loose := by
    refine Node.relaxes_of_bare hequal rfl rfl rfl fun f => ?_
    cases f <;> decide +kernel
  have hexpected : expected.IsDocument := by decide +kernel
  have hactual : actual.IsDocument := by decide +kernel
  have h : Passes {} strict expected actual := (passes_iff hexpected hstrict).2 (by decide +kernel)
  exact ⟨hstrict, hloose, hr, hexpected, hactual, h,
    validate_relaxed hstrict hloose hr (.inl hexpected) (.inl hactual) h⟩

end JsonExpect
