import JsonExpect.Proofs.Path.RoundTrip
import JsonExpect.Proofs.Yields

/-!
# Texts that are no paths

Almost every text is a path: brackets that hold something else than an index or an asterisk are
dropped, and what does not close is part of a key. Only an index in too many digits keeps a text
from being read (`parse_eq_error`), and it does so already on its own (`parse_long_index`). So the
indices of a path that has been read can be written as well (`legible_of_parse`).
-/

namespace JsonExpect

/-- An index in more digits than a numeral may have. -/
def PathError.IsLongIndex (e : PathError) : Prop :=
  ∃ digits, e = .indexTooLong digits ∧ longestNumeral < digits

namespace Path

variable {e : PathError}

theorem bracketComponent_eq_error {content : List Char} (h : bracketComponent content = .error e) :
    e.IsLongIndex := by
  rw [bracketComponent] at h
  split at h
  · cases h
  · split at h
    · split at h
      · next hlong => exact ⟨content.length, (Except.error.inj h).symm, hlong⟩
      · cases h
    · cases h

theorem bracketComponents_eq_error {contents : List (List Char)}
    (h : bracketComponents contents = .error e) : e.IsLongIndex := by
  induction contents with
  | nil => cases h
  | cons content contents ih =>
    rw [bracketComponents] at h
    split at h
    · next hcontent =>
      cases h
      exact bracketComponent_eq_error hcontent
    · split at h
      · next hcontents =>
        cases h
        exact ih hcontents
      · cases h

theorem segmentComponents_eq_error {segment : List Char}
    (h : segmentComponents segment = .error e) : e.IsLongIndex := by
  rw [segmentComponents] at h
  simp only at h
  split at h
  · next hbrackets =>
    cases h
    exact bracketComponents_eq_error hbrackets
  · cases h

theorem segmentsComponents_eq_error {segments : List (List Char)}
    (h : segmentsComponents segments = .error e) : e.IsLongIndex := by
  induction segments with
  | nil => cases h
  | cons segment segments ih =>
    rw [segmentsComponents] at h
    split at h
    · next hsegment =>
      cases h
      exact segmentComponents_eq_error hsegment
    · split at h
      · next hsegments =>
        cases h
        exact ih hsegments
      · cases h

/-- A text is refused as a path for an index in too many digits alone. -/
theorem parse_eq_error {text : String} (h : parse text = .error e) : e.IsLongIndex := by
  rw [parse] at h
  split at h
  · next hchars =>
    cases h
    exact segmentsComponents_eq_error hchars
  · cases h

/-! ## Paths that have been read -/

theorem natOfDigits_lt {digits : List Char} (h : ∀ d ∈ digits, d.isDigit = true) :
    Json.natOfDigits digits < Nat.pow 10 digits.length := by
  have hstep : ∀ (ds : List Char) (n : Nat), (∀ d ∈ ds, d.isDigit = true) →
      ds.foldl (fun n c => 10 * n + (c.toNat - '0'.toNat)) n < (n + 1) * 10 ^ ds.length := by
    intro ds
    induction ds with
    | nil => intro n _; simp
    | cons d ds ih =>
      intro n hds
      obtain ⟨hd, hds⟩ := List.forall_mem_cons.1 hds
      have hdigit : d.toNat - '0'.toNat ≤ 9 := by
        simp only [Char.isDigit, Bool.and_eq_true, decide_eq_true_eq] at hd
        have hle : d.toNat ≤ 57 := hd.2
        change d.toNat - 48 ≤ 9
        omega
      refine Nat.lt_of_lt_of_le (ih _ hds) ?_
      rw [List.length_cons, Nat.pow_succ', ← Nat.mul_assoc]
      have hfirst : 10 * n + (d.toNat - '0'.toNat) + 1 ≤ (n + 1) * 10 := by omega
      exact Nat.mul_le_mul_right _ hfirst
  have hall := hstep digits 0 h
  rwa [Nat.zero_add, Nat.one_mul] at hall

theorem yields_bracketComponent (content : List Char) :
    Yields (fun found => ∀ c ∈ found, c.Legible) (bracketComponent content) := by
  rw [bracketComponent]
  split
  · exact yields_ok fun c hc => by cases hc; trivial
  · split
    · next hdigits =>
      split
      · exact yields_error _
      · next hshort =>
        refine yields_ok fun c hc => ?_
        cases hc
        have hlt := natOfDigits_lt (List.all_eq_true.1 hdigits.2)
        have hpos : 0 < content.length := List.length_pos_of_ne_nil hdigits.1
        exact Nat.le_trans ((Nat.length_toDigits_le_iff (by decide) hpos).2 hlt)
          (Nat.le_of_not_lt hshort)
    · refine yields_ok fun c hc => ?_
      cases hc

theorem yields_bracketComponents (contents : List (List Char)) :
    Yields (fun cs => ∀ c ∈ cs, c.Legible) (bracketComponents contents) := by
  induction contents with
  | nil => exact yields_ok (List.forall_mem_nil _)
  | cons content contents ih =>
    have hcontent := yields_bracketComponent content
    rw [bracketComponents]
    split
    · exact yields_error _
    · next found hfound =>
      split
      · exact yields_error _
      · next cs hcs =>
        refine yields_ok (List.forall_mem_append.2 ⟨fun c hc => ?_, ih cs hcs⟩)
        exact hcontent found hfound c (Option.mem_toList.1 hc)

theorem yields_segmentComponents (segment : List Char) :
    Yields (fun cs => ∀ c ∈ cs, c.Legible) (segmentComponents segment) := by
  rw [segmentComponents]
  generalize peelBrackets [] (unescape '.' segment).reverse = peeled
  obtain ⟨brackets, rest⟩ := peeled
  simp only
  split
  · exact yields_error _
  · next cs hcs =>
    refine yields_ok (List.forall_mem_append.2 ⟨?_, yields_bracketComponents brackets cs hcs⟩)
    split
    · exact List.forall_mem_nil _
    · refine List.forall_mem_singleton.2 ?_
      rw [keyComponent]
      split <;> trivial

/-- Indices that are read have few enough digits to be written. -/
theorem legible_of_parse {text : String} {p : Path} (h : parse text = .ok p) : p.Legible := by
  have hsegments : ∀ segments, Yields (fun cs => ∀ c ∈ cs, c.Legible)
      (segmentsComponents segments) := by
    intro segments
    induction segments with
    | nil => exact yields_ok (List.forall_mem_nil _)
    | cons segment segments ih =>
      rw [segmentsComponents]
      split
      · exact yields_error _
      · next cs hcs =>
        split
        · exact yields_error _
        · next ds hds =>
          exact yields_ok (List.forall_mem_append.2
            ⟨yields_segmentComponents segment cs hcs, ih ds hds⟩)
  rw [parse] at h
  split at h
  · cases h
  · next cs hcs =>
    cases h
    exact hsegments _ cs hcs

/-! ## An index alone -/

/-- An index in too many digits is refused, also one that begins with zeros. -/
theorem parse_long_index {digits : List Char} (hdigits : ∀ d ∈ digits, d.isDigit = true)
    (hlong : longestNumeral < digits.length) :
    parse (String.ofList ('[' :: digits ++ [']'])) = .error (.indexTooLong digits.length) := by
  have hother : ∀ c : Char, c.isDigit = false → c ∉ digits := fun c hc hmem => by
    rw [hdigits c hmem] at hc
    cases hc
  have hplain : ∀ c : Char, c.isDigit = false → c ≠ '[' → c ≠ ']' →
      c ∉ '[' :: digits ++ [']'] := by
    intro c hc hopen hclose hmem
    simp only [List.cons_append, List.mem_cons, List.mem_append, List.not_mem_nil, or_false] at hmem
    rcases hmem with rfl | hmem | rfl
    · exact hopen rfl
    · exact hother c hc hmem
    · exact hclose rfl
  have hsegments : segments false ('[' :: digits ++ [']']) = ['[' :: digits ++ [']']] :=
    (unbroken_of_not_mem (hplain '.' (by decide) (by decide) (by decide))).segments_eq
  have hsegment : unescape '.' ('[' :: digits ++ [']']) = '[' :: digits ++ [']'] :=
    unescape_of_not_mem (hplain '\\' (by decide) (by decide) (by decide))
  have hreverse : ('[' :: digits ++ [']']).reverse = ']' :: (digits.reverse ++ ['[']) := by simp
  have hescaped : isEscaped (digits.reverse ++ ['[']) = false := by
    refine isEscaped_of_head?_ne fun hhead => ?_
    have hmem : '\\' ∈ digits.reverse ++ ['['] := List.mem_of_head? hhead
    simp only [List.mem_append, List.mem_reverse, List.mem_singleton] at hmem
    rcases hmem with hmem | hmem
    · exact hother _ (by decide) hmem
    · exact absurd hmem (by decide)
  have hopen : openBracket? [] (digits.reverse ++ ['[']) = some (digits, []) := by
    rw [openBracket?_reverse_append (hother '[' (by decide)), List.append_nil]
    exact openBracket?_open rfl
  have hpeel : peelBrackets [] ('[' :: digits ++ [']']).reverse = ([digits], []) := by
    rw [hreverse, peelBrackets_matched hescaped hopen, peelBrackets_nil]
  have hstar : digits ≠ ['*'] := by
    rintro rfl
    exact absurd (hdigits '*' List.mem_cons_self) (by decide)
  have hne : digits ≠ [] := by
    rintro rfl
    exact absurd hlong (Nat.not_lt_zero _)
  have hbracket : bracketComponent digits = .error (.indexTooLong digits.length) := by
    rw [bracketComponent, if_neg hstar, if_pos ⟨hne, List.all_eq_true.2 hdigits⟩, if_pos hlong]
  rw [parse, String.toList_ofList, parseChars, hsegments, segmentsComponents, segmentComponents,
    hsegment, hpeel]
  simp only [bracketComponents, hbracket]

end Path

end JsonExpect
