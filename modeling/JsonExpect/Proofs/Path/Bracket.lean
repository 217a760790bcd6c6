import JsonExpect.Proofs.Path.Segment

/-!
# Brackets at the end of any segment

The search for brackets runs over a segment backwards, whatever the segment is like. It splits the
segment in two: what is left, and contents in brackets, one after the other
(`exists_peelBrackets`). A content is `Enclosed`: no bracket opens inside it and none of its
backslashes keeps the closing bracket from closing. Brackets that are written behind a segment are
peeled off first, and the search goes on as if they were not there (`peelBrackets_enclosed`).
-/

namespace JsonExpect.Path

/-- What stands between brackets that belong together. -/
structure Enclosed (content : List Char) : Prop where
  /-- Every opening bracket inside is escaped. -/
  inside : ∀ before after, content = before ++ '[' :: after → Odd (backslashes before)
  /-- The closing bracket is not. -/
  close : ¬ Odd (backslashes content)

/-- Contents, each in brackets. -/
def enclose (contents : List (List Char)) : List Char :=
  contents.flatMap fun content => '[' :: content ++ [']']

/-- The component that a content stands for, if it is not malformed. -/
def bracketed (content : List Char) : List Component :=
  if content = ['*'] then [.anyIndex]
  else if content ≠ [] ∧ content.all Char.isDigit = true then
    [.index (Nat.ofDigitChars 10 content 0)]
  else []

variable {content text before acc rest : List Char} {contents : List (List Char)}

theorem enclosed_of_not_mem (hopen : '[' ∉ content) (hback : '\\' ∉ content) :
    Enclosed content where
  inside before after h := absurd (h ▸ by simp) hopen
  close h := hback (List.mem_of_getLast? (getLast?_of_odd_backslashes h))

theorem enclose_concat (contents : List (List Char)) (content : List Char) :
    enclose (contents ++ [content]) = enclose contents ++ '[' :: content ++ [']'] := by
  simp [enclose]

theorem backslashes_enclose (contents : List (List Char)) : backslashes (enclose contents) = 0 := by
  rcases List.eq_nil_or_concat contents with rfl | ⟨contents, content, rfl⟩
  · rfl
  · rw [List.concat_eq_append, enclose_concat, backslashes_concat_of_ne _ (by decide)]

/-! ## The search for an opening bracket -/

/-- Only the backslashes after the last other character count. -/
theorem isEscaped_reverse_append_cons {c : Char} (hc : c ≠ '\\') (content before : List Char) :
    isEscaped (content.reverse ++ c :: before) = true ↔ Odd (backslashes content) := by
  have hstop : (c :: before).takeWhile (· = '\\') = [] := List.takeWhile_cons_of_neg (by simpa)
  rw [← isEscaped_reverse_iff, isEscaped, isEscaped, List.takeWhile_append, hstop]
  split
  · next h => rw [List.append_nil, h]
  · rfl

theorem odd_backslashes_append_cons_iff {c : Char} (hc : c ≠ '\\') (front text : List Char) :
    Odd (backslashes (front ++ c :: text)) ↔ Odd (backslashes text) := by
  rw [← isEscaped_reverse_iff, List.reverse_append, List.reverse_cons, List.append_assoc,
    List.singleton_append, isEscaped_reverse_append_cons hc]

/-- The search takes the nearest opening bracket that is not escaped. -/
theorem openBracket?_eq_some (h : openBracket? acc before = some (content, rest)) :
    ∃ found, content = found ++ acc ∧ before = found.reverse ++ '[' :: rest ∧
      isEscaped rest = false ∧ ∀ b a, found = b ++ '[' :: a → Odd (backslashes b) := by
  fun_induction openBracket? acc before with
  | case1 => cases h
  | case2 acc c before hc =>
    obtain ⟨rfl, hescaped⟩ := hc
    cases h
    exact ⟨[], rfl, rfl, by simpa using hescaped, by simp⟩
  | case3 acc c before hc ih =>
    obtain ⟨found, rfl, rfl, hrest, hinside⟩ := ih h
    refine ⟨found ++ [c], by simp, by simp, hrest, fun b a hsplit => ?_⟩
    rcases List.eq_nil_or_concat a with rfl | ⟨a, d, rfl⟩
    · obtain ⟨rfl, hopen⟩ := List.append_inj' hsplit rfl
      have hescaped : isEscaped (found.reverse ++ '[' :: rest) = true := by
        by_contra hnot
        exact hc ⟨List.head_eq_of_cons_eq hopen, hnot⟩
      exact (isEscaped_reverse_append_cons (by decide) found rest).1 hescaped
    · rw [List.concat_eq_append, ← List.cons_append, ← List.append_assoc] at hsplit
      exact hinside b a (List.append_inj' hsplit rfl).1

/-- The search passes over what brackets enclose. -/
theorem openBracket?_enclosed (hinside : ∀ b a, content = b ++ '[' :: a → Odd (backslashes b))
    (hrest : isEscaped rest = false) :
    openBracket? acc (content.reverse ++ '[' :: rest) = some (content ++ acc, rest) := by
  induction content using List.reverseRecOn generalizing acc with
  | nil => exact openBracket?_open hrest
  | append_singleton content c ih =>
    have hc : ¬ (c = '[' ∧ isEscaped (content.reverse ++ '[' :: rest) = false) := by
      rintro ⟨rfl, hplain⟩
      rw [Bool.eq_false_iff] at hplain
      have hodd : Odd (backslashes content) := hinside content [] rfl
      exact hplain ((isEscaped_reverse_append_cons (by decide) content rest).2 hodd)
    have hfront : ∀ b a, content = b ++ '[' :: a → Odd (backslashes b) := fun b a h =>
      hinside b (a ++ [c]) (by simp [h])
    rw [List.reverse_append, List.reverse_singleton, List.append_assoc, List.singleton_append,
      openBracket?_cons c hc, ih hfront, List.append_assoc, List.singleton_append]

/-! ## Peeling brackets off -/

theorem peelBrackets_enclosed (h : Enclosed content) (htext : ¬ Odd (backslashes text))
    (found : List (List Char)) :
    peelBrackets found (text ++ '[' :: content ++ [']']).reverse =
      peelBrackets (content :: found) text.reverse := by
  have hreverse : (text ++ '[' :: content ++ [']']).reverse =
      ']' :: (content.reverse ++ '[' :: text.reverse) := by simp
  have hclose : isEscaped (content.reverse ++ '[' :: text.reverse) = false :=
    Bool.eq_false_iff.2 (mt (isEscaped_reverse_append_cons (by decide) content _).1 h.close)
  have hopen : isEscaped text.reverse = false :=
    Bool.eq_false_iff.2 (mt (isEscaped_reverse_iff text).1 htext)
  rw [hreverse, peelBrackets_matched hclose (openBracket?_enclosed h.inside hopen), List.append_nil]

theorem peelBrackets_enclose (h : ∀ content ∈ contents, Enclosed content)
    (found : List (List Char)) :
    peelBrackets found (enclose contents).reverse = (contents ++ found, []) := by
  induction contents using List.reverseRecOn generalizing found with
  | nil => exact peelBrackets_nil
  | append_singleton contents content ih =>
    have hback : ¬ Odd (backslashes (enclose contents)) := by
      rw [backslashes_enclose]
      decide
    rw [enclose_concat, peelBrackets_enclosed (h content (by simp)) hback,
      ih (fun c hc => h c (List.mem_append_left _ hc)), List.append_assoc, List.singleton_append]

/-- **What is peeled off.** Whatever a segment is like, the search splits it in what is left and
contents in brackets. -/
theorem exists_peelBrackets (text : List Char) :
    ∃ left contents,
      (∀ found, peelBrackets found text.reverse = (contents ++ found, left.reverse)) ∧
        text = left ++ enclose contents ∧ ∀ content ∈ contents, Enclosed content := by
  induction hlen : text.length using Nat.strong_induction_on generalizing text with
  | _ n ih =>
    have hkept : (∀ found, peelBrackets found text.reverse = (found, text.reverse)) →
        ∃ left contents,
          (∀ found, peelBrackets found text.reverse = (contents ++ found, left.reverse)) ∧
            text = left ++ enclose contents ∧ ∀ content ∈ contents, Enclosed content := fun h =>
      ⟨text, [], h, by simp [enclose], by simp⟩
    rcases List.eq_nil_or_concat text with rfl | ⟨front, c, rfl⟩
    · exact hkept fun _ => peelBrackets_nil
    rw [List.concat_eq_append] at hkept hlen ⊢
    rw [List.reverse_append, List.reverse_singleton, List.singleton_append] at hkept ⊢
    by_cases hc : c = ']' ∧ isEscaped front.reverse = false
    · obtain ⟨rfl, hclose⟩ := hc
      cases hopen : openBracket? [] front.reverse with
      | none => exact hkept fun _ => peelBrackets_unmatched hopen
      | some found =>
        obtain ⟨content, rest⟩ := found
        obtain ⟨found, hcontent, hfront, hrest, hinside⟩ := openBracket?_eq_some hopen
        obtain rfl : content = found := by rw [hcontent, List.append_nil]
        obtain rfl : front = rest.reverse ++ '[' :: content := by
          rw [← List.reverse_reverse front, hfront]
          simp
        have henclosed : Enclosed content := by
          refine ⟨hinside, fun hodd => ?_⟩
          rw [hfront, (isEscaped_reverse_append_cons (by decide) content rest).2 hodd] at hclose
          cases hclose
        obtain ⟨left, contents, hpeel, hsplit, hall⟩ :=
          ih rest.reverse.length (by rw [← hlen]; simp) rest.reverse rfl
        rw [List.reverse_reverse] at hpeel
        refine ⟨left, contents ++ [content], fun found => ?_, ?_, ?_⟩
        · rw [peelBrackets_matched hclose hopen, hpeel, List.append_assoc, List.singleton_append]
        · rw [hsplit, enclose_concat]
          simp
        · exact List.forall_mem_append.2 ⟨hall, by simpa using henclosed⟩
    · exact hkept fun _ => peelBrackets_stop hc

end JsonExpect.Path
