import JsonExpect.Proofs.Validation.Admission

/-!
# Validations in a chain

A document that does for a second one, which does for a third one, does for the third itself, as
long as order is kept and no values must differ (`validate_trans`). The induction is on what is
admitted in place of the first document. Where that is a null, nothing is asked for; everywhere else
the second document has a value of the same kind, so what it admits is asked for there in turn. The
constraints speak of the last document alone.
-/

namespace JsonExpect

namespace Node

theorem agrees_trans {node : Node} {l m n : Nat} (h : node.agrees l m = true)
    (h' : node.agrees m n = true) : node.agrees l n = true := by
  unfold agrees at h h' ⊢
  split at h
  · next hcount =>
    rw [if_pos hcount] at h' ⊢
    simp only [decide_eq_true_eq] at h h' ⊢
    omega
  · next hcount =>
    rw [if_neg hcount] at h' ⊢
    simp only [decide_eq_true_eq] at h h' ⊢
    omega

/-- What must be equal is equal to what its equal is equal to, where no values must differ. -/
theorem admitsScalar_trans {node : Node} {u v w : Value} (hequal : node.flag .valueNotEqual = false)
    (h : node.admitsScalar (u.sameScalar v) = true)
    (h' : node.admitsScalar (v.sameScalar w) = true) :
    node.admitsScalar (u.sameScalar w) = true := by
  unfold admitsScalar at h h' ⊢
  rw [hequal, if_neg (by simp)] at h h' ⊢
  rw [Bool.or_eq_true] at h h' ⊢
  rcases h with h | h
  · rcases h' with h' | h'
    · exact .inl (Value.sameScalar_trans h h')
    · exact .inr h'
  · exact .inr h

end Node

/-- What is admitted in place of something admitted is admitted. -/
theorem Node.Admits.trans {node : Node} {expected middle : Value}
    (h : node.Admits expected middle) :
    ∀ {actual}, expected.IsDocument → middle.IsDocument → node.Never .valueNotEqual →
      node.Admits middle actual → node.Admits expected actual := by
  induction h with
  | null node middle => exact fun _ _ _ _ => .null node _
  | @scalar node expected middle isScalar kind value =>
    intro actual _ _ hequal h'
    have hscalar : middle.isScalar = true := by
      rw [Value.isScalar_iff_kind?] at isScalar ⊢
      rwa [← kind]
    obtain ⟨kind', value'⟩ := (admits_scalar_iff hscalar).1 h'
    exact .scalar isScalar (kind.trans kind') (admitsScalar_trans hequal.here value value')
  | @array node items others size all ih =>
    intro actual hexpected hmiddle hequal h'
    obtain ⟨rest, rfl⟩ := Value.exists_array_of_kind? (h'.kind?_eq nofun)
    obtain ⟨size', all'⟩ := admits_array_iff.1 h'
    refine .array (agrees_trans size size') fun i hi hi'' => ?_
    have hi' : i < others.length := Nat.lt_of_lt_of_le hi (le_of_agrees size)
    exact ih i hi hi' (hexpected.items _ (List.getElem_mem hi))
      (hmiddle.items _ (List.getElem_mem hi')) (hequal.resolve _) (all' i hi' hi'')
  | @object node members others size all ih =>
    intro actual hexpected hmiddle hequal h'
    obtain ⟨rest, rfl⟩ := Value.exists_object_of_kind? (h'.kind?_eq nofun)
    obtain ⟨size', all'⟩ := admits_object_iff.1 h'
    refine .object (agrees_trans size size') fun m hm => ?_
    obtain hpresent | hmissing := hmiddle.entry (k := m.1)
    · -- the middle document has the member, so it asks for it too
      have hfound : (m.1, (Value.object others).entry m.1) ∈ others := by
        rw [Value.entry_object] at hpresent ⊢
        cases hfind : findMember? m.1 others with
        | none => rw [hfind] at hpresent; cases hpresent
        | some w => exact mem_of_findMember? hmiddle.members.1 hfind
      obtain ⟨s, hs⟩ := hexpected.members.1 m hm
      have hresolve : (node.resolveKey m.1).Never .valueNotEqual := by
        rw [hs]
        exact hequal.resolve s
      exact ih m hm (hexpected.members.2.2 m hm) hpresent hresolve (all' _ hfound)
    · -- it does not have the member, so the first asks for nothing there
      have hnull : m.2 = .null := (hmissing ▸ all m hm).eq_null
      rw [hnull]
      exact .null _ _

/-- **Validations chain.** Where no node lets elements match in any order or wants values to differ,
a document that passes against a second one, which passes against a third, passes against the
third. -/
theorem validate_trans {policy : SnapshotPolicy} {node : Node} (horder : node.Never .anyOrder)
    (hequal : node.Never .valueNotEqual) {expected middle actual : Value}
    (hexpected : expected.IsDocument ∨ expected = .missing)
    (hmiddle : middle.IsDocument ∨ middle = .missing)
    (h : Passes policy node expected middle) (h' : Passes policy node middle actual) :
    Passes policy node expected actual := by
  have hconstraints : Constraints.check policy [] node actual = ∅ := by
    obtain hmiddle | rfl := hmiddle
    · exact ((passes_iff hmiddle horder).1 h').1
    · exact passes_missing_iff.1 h'
  obtain hexpected | rfl := hexpected
  · have hadmits := (Comparison.accepts_iff_admits hexpected horder).1
      ((passes_iff hexpected horder).1 h).2
    refine (passes_iff hexpected horder).2 ⟨hconstraints, ?_⟩
    rw [Comparison.accepts_iff_admits hexpected horder]
    obtain hmiddle | rfl := hmiddle
    · have hadmits' := (Comparison.accepts_iff_admits hmiddle horder).1
        ((passes_iff hmiddle horder).1 h').2
      exact hadmits.trans hexpected hmiddle hequal hadmits'
    · rw [hadmits.eq_null]
      exact .null node actual
  · exact passes_missing_iff.2 hconstraints

/-- Types only below one key, counted members below another, a null that the middle document has no
member for, and one that is a member of the middle document itself. -/
theorem validate_trans_mixed :
    let calls : List Call := [⟨.flag .exactMatch false, ⟨[.key "a"]⟩, .subtree⟩,
      ⟨.flag .equalCount true, ⟨[.key "b"]⟩, .singleNode⟩, ⟨.elementCount 3, ⟨[.key "a"]⟩,
        .singleNode⟩, ⟨.flag .keyMustBeAbsent true, ⟨[.key "d"]⟩, .singleNode⟩]
    let node := Node.configured calls
    let expected := Value.object [(.string "a", .array [.int 1, .null]), (.string "c", .null)]
    let middle := Value.object [(.string "b", .object [(.string "x", .null)]),
      (.string "a", .array [.int 2, .string "s", .float ⟨0⟩])]
    let actual := Value.object [(.string "a", .array [.int 3, .string "t", .float ⟨1⟩]),
      (.string "b", .object [(.string "y", .bool true)]), (.string "c", .int 0)]
    node.Never .anyOrder ∧ node.Never .valueNotEqual ∧ expected.IsDocument ∧ middle.IsDocument ∧
      Passes {} node expected middle ∧ Passes {} node middle actual ∧
        Passes {} node expected actual := by
  intro calls node expected middle actual
  have hcalls : ∀ f : Flag, f = .anyOrder ∨ f = .valueNotEqual →
      ∀ c ∈ calls, c.setting ≠ .flag f true := by
    rintro f (rfl | rfl) c hc <;> revert c <;> decide +kernel
  have hlegible : ∀ c ∈ calls, c.path.Legible := by decide +kernel
  have horder : node.Never .anyOrder := Node.never_configured hlegible rfl (hcalls _ (.inl rfl))
  have hequal : node.Never .valueNotEqual :=
    Node.never_configured hlegible rfl (hcalls _ (.inr rfl))
  have hexpected : expected.IsDocument := by decide +kernel
  have hmiddle : middle.IsDocument := by decide +kernel
  have h : Passes {} node expected middle := (passes_iff hexpected horder).2 (by decide +kernel)
  have h' : Passes {} node middle actual := (passes_iff hmiddle horder).2 (by decide +kernel)
  exact ⟨horder, hequal, hexpected, hmiddle, h, h',
    validate_trans horder hequal (.inl hexpected) (.inl hmiddle) h h'⟩

end JsonExpect
