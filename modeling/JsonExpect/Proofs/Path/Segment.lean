import JsonExpect.Proofs.Path.Escape

/-!
# Reading one segment back

The search for brackets runs over a segment backwards and takes a bracket for escaped if an odd
number of backslashes stands before it. In a written key each bracket has one backslash more before
it than the name has, so the search mistakes a bracket of the name for a separator exactly if the
name has an odd number there. `Faithful` says when a key is read back from its written form and
what may follow it; `segmentComponents_chars_iff` proves it for a segment of one component and the
array components after it.
-/

namespace JsonExpect

open JsonExpect.Path

/-! ## Names that are read back -/

/-- Some opening bracket has an odd number of backslashes before it. -/
def OpensEscaped (name : List Char) : Prop :=
  ∃ before after, name = before ++ '[' :: after ∧ Odd (backslashes before)

/-- The name ends in a closing bracket that has an odd number of backslashes before it. -/
def ClosesEscaped (name : List Char) : Prop :=
  ∃ before, name = before ++ [']'] ∧ Odd (backslashes before)

/-- What a key's name must be like for its written form to be read back, given the component that
follows the key. -/
structure Faithful (name : List Char) (next : Option Component) : Prop where
  /-- No backslash stands directly before an asterisk. -/
  star : ¬ ['\\', '*'] <:+: name
  /-- Only a key that has a name has brackets after it. -/
  empty : name = [] → ∀ c ∈ next, c.isArrayAccess = false
  /-- A name that ends in a backslash is the last one, or it ends in an even number of them and
  brackets follow. -/
  last : name.getLast? = some '\\' →
    next = none ∨ (∃ c ∈ next, c.isArrayAccess = true) ∧ Even (backslashes name)
  /-- The name does not look like one that ends in brackets. -/
  bracket : ¬ (ClosesEscaped name ∧ OpensEscaped name)

instance (name : List Char) : Decidable (OpensEscaped name) :=
  decidable_of_iff (∃ i < name.length, name[i]? = some '[' ∧ Odd (backslashes (name.take i))) <| by
    constructor
    · rintro ⟨i, hi, hopen, hodd⟩
      refine ⟨name.take i, name.drop (i + 1), ?_, hodd⟩
      obtain ⟨_, hget⟩ := List.getElem?_eq_some_iff.1 hopen
      rw [← hget, List.getElem_cons_drop, List.take_append_drop]
    · rintro ⟨before, after, rfl, hodd⟩
      exact ⟨before.length, by simp, by simp, by simpa using hodd⟩

instance (name : List Char) : Decidable (ClosesEscaped name) :=
  decidable_of_iff (name.getLast? = some ']' ∧ Odd (backslashes name.dropLast)) <| by
    constructor
    · rintro ⟨hlast, hodd⟩
      exact ⟨name.dropLast, (List.dropLast_append_getLast? ']' hlast).symm, hodd⟩
    · rintro ⟨before, rfl, hodd⟩
      exact ⟨by simp, by simpa using hodd⟩

instance (name : List Char) (next : Option Component) : Decidable (Faithful name next) :=
  decidable_of_iff
    (¬ ['\\', '*'] <:+: name ∧ (name = [] → ∀ c ∈ next, c.isArrayAccess = false) ∧
      (name.getLast? = some '\\' →
        next = none ∨ (∃ c ∈ next, c.isArrayAccess = true) ∧ Even (backslashes name)) ∧
      ¬ (ClosesEscaped name ∧ OpensEscaped name))
    ⟨fun h => ⟨h.1, h.2.1, h.2.2.1, h.2.2.2⟩, fun h => ⟨h.star, h.empty, h.last, h.bracket⟩⟩

/-- What stands between the brackets of a component that has them. -/
def Component.content : Component → List Char
  | .index i => Nat.toDigits 10 i
  | .anyIndex => ['*']
  | _ => []

namespace Path

/-- The written form of components that have brackets. -/
def bracketChars (cs : List Component) : List Char := cs.flatMap Component.chars

/-! ## Bracket contents -/

section Brackets

variable {c : Component} {cs : List Component}

theorem chars_of_isArrayAccess (h : c.isArrayAccess = true) :
    c.chars = '[' :: c.content ++ [']'] := by
  cases c <;> simp_all [Component.isArrayAccess, Component.chars, Component.content]

/-- Bracket contents have no mark and no backslash. -/
theorem mem_content {d : Char} (hd : d ∈ c.content) : d.isDigit = true ∨ d = '*' := by
  cases c with
  | index i => exact .inl (Nat.isDigit_of_mem_toDigits (by decide) (by decide) hd)
  | anyIndex => exact .inr (List.mem_singleton.1 hd)
  | key | anyKey => cases hd

theorem not_mem_content {d : Char} (hdigit : d.isDigit = false) (hstar : d ≠ '*') :
    d ∉ c.content := by
  intro hd
  rcases mem_content hd with h | h
  · rw [hdigit] at h
    exact Bool.noConfusion h
  · exact hstar h

theorem bracketComponent_content (hc : c.isArrayAccess = true) (hl : c.Legible) :
    bracketComponent c.content = .ok (some c) := by
  cases c with
  | anyIndex => simp [bracketComponent, Component.content]
  | key | anyKey => simp [Component.isArrayAccess] at hc
  | index i =>
    have hdigit : ∀ d ∈ Nat.toDigits 10 i, d.isDigit = true := fun d hd =>
      Nat.isDigit_of_mem_toDigits (by decide) (by decide) hd
    have hstar : Nat.toDigits 10 i ≠ ['*'] := by
      intro h
      have := hdigit '*' (by simp [h])
      revert this
      decide
    have hnot : ¬ longestNumeral < (Nat.toDigits 10 i).length := Nat.not_lt.2 hl
    have hread : Json.natOfDigits (Nat.toDigits 10 i) = i := Nat.ofDigitChars_ten_toDigits
    have hall : (Nat.toDigits 10 i).all Char.isDigit = true := List.all_eq_true.2 hdigit
    rw [Component.content, bracketComponent, if_neg hstar, if_pos ⟨Nat.toDigits_ne_nil, hall⟩,
      if_neg hnot, hread]

theorem bracketComponents_content (hcs : ∀ c ∈ cs, c.isArrayAccess = true)
    (hl : ∀ c ∈ cs, c.Legible) : bracketComponents (cs.map Component.content) = .ok cs := by
  induction cs with
  | nil => rfl
  | cons c cs ih =>
    rw [List.map_cons, bracketComponents,
      bracketComponent_content (hcs c List.mem_cons_self) (hl c List.mem_cons_self),
      ih (fun d hd => hcs d (List.mem_cons_of_mem c hd))
        (fun d hd => hl d (List.mem_cons_of_mem c hd))]
    rfl

/-- A content that holds anything else is dropped. -/
theorem bracketComponents_malformed {d : Char} {content : List Char} (hd : d ∈ content)
    (hdigit : d.isDigit = false) (hstar : d ≠ '*') (contents : List (List Char)) :
    bracketComponents (content :: contents) = bracketComponents contents := by
  have hne : content ≠ ['*'] := by
    rintro rfl
    exact hstar (List.mem_singleton.1 hd)
  have hall : ¬ (content ≠ [] ∧ content.all Char.isDigit = true) := by
    rintro ⟨-, h⟩
    have := List.all_eq_true.1 h d hd
    rw [hdigit] at this
    exact Bool.noConfusion this
  have hnone : bracketComponent content = .ok none := by
    rw [bracketComponent, if_neg hne, if_neg hall]
  rw [bracketComponents, hnone]
  cases bracketComponents contents <;> rfl

end Brackets

/-! ## The search for an opening bracket -/

section Open

variable {name text before acc : List Char}

theorem isEscaped_cons_of_ne {c : Char} (h : c ≠ '\\') : isEscaped (c :: before) = false := by
  simp [isEscaped, h]

theorem isEscaped_of_head?_ne (h : before.head? ≠ some '\\') : isEscaped before = false := by
  cases before with
  | nil => rfl
  | cons c before => exact isEscaped_cons_of_ne fun hc => h (congrArg some hc)

theorem openBracket?_cons (c : Char) (h : ¬ (c = '[' ∧ isEscaped before = false)) :
    openBracket? acc (c :: before) = openBracket? (c :: acc) before := by
  rw [openBracket?, if_neg (by simpa using h)]

theorem openBracket?_open (h : isEscaped before = false) :
    openBracket? acc ('[' :: before) = some (acc, before) := by
  rw [openBracket?, if_pos (by simp [h])]

/-- The search passes a text without opening brackets. -/
theorem openBracket?_reverse_append (h : '[' ∉ text) :
    openBracket? acc (text.reverse ++ before) = openBracket? (text ++ acc) before := by
  induction text using List.reverseRecOn generalizing acc with
  | nil => rfl
  | append_singleton text c ih =>
    rw [List.mem_append, not_or, List.mem_singleton] at h
    rw [List.reverse_append, List.reverse_singleton, List.append_assoc, List.singleton_append,
      openBracket?_cons c (fun hc => h.2 hc.1.symm), ih h.1, List.append_assoc,
      List.singleton_append]

theorem reverse_escapeBy_backslash (name : List Char) :
    '\\' :: (escapeBy isBracket name).reverse =
      (escapeBy isBracket (name ++ ['\\'])).reverse := by
  rw [escapeBy_append, List.reverse_append]
  rfl

theorem isEscaped_escapeBy_iff (name : List Char) :
    isEscaped (escapeBy isBracket name).reverse = true ↔ Odd (backslashes name) := by
  rw [isEscaped_reverse_iff, backslashes_escapeBy (by decide)]

/-- Whether a bracket that is written after a name is escaped there. -/
theorem isEscaped_backslash_escapeBy (name : List Char) :
    isEscaped ('\\' :: (escapeBy isBracket name).reverse) = false ↔ Odd (backslashes name) := by
  rw [reverse_escapeBy_backslash, Bool.eq_false_iff, ne_eq, isEscaped_escapeBy_iff,
    backslashes_concat_backslash, Nat.odd_add_one, not_not]

theorem openBracket?_backslash :
    openBracket? acc ('\\' :: before) = openBracket? ('\\' :: acc) before :=
  openBracket?_cons '\\' fun h => absurd h.1 (by decide)

/-- The search over a written name passes a character that is no opening bracket after an odd
number of backslashes. -/
theorem openBracket?_escapeBy_concat {c : Char} (h : ¬ (c = '[' ∧ Odd (backslashes name))) :
    openBracket? acc (escapeBy isBracket (name ++ [c])).reverse =
      openBracket? (escapeBy isBracket [c] ++ acc) (escapeBy isBracket name).reverse := by
  rw [escapeBy_append, List.reverse_append]
  rcases Bool.eq_false_or_eq_true (isBracket c) with hc | hc
  · rw [escapeBy_cons_of_special hc]
    have hpass : ¬ (c = '[' ∧ isEscaped ('\\' :: (escapeBy isBracket name).reverse) = false) :=
      fun hc => h ⟨hc.1, (isEscaped_backslash_escapeBy name).1 hc.2⟩
    exact (openBracket?_cons c hpass).trans openBracket?_backslash
  · rw [escapeBy_cons_of_plain hc]
    refine openBracket?_cons c fun hopen => ?_
    rw [hopen.1] at hc
    exact Bool.noConfusion hc

theorem opensEscaped_concat {c : Char} :
    OpensEscaped (name ++ [c]) ↔ OpensEscaped name ∨ c = '[' ∧ Odd (backslashes name) := by
  constructor
  · rintro ⟨before, after, h, hodd⟩
    rcases List.eq_nil_or_concat after with rfl | ⟨after, d, rfl⟩
    · obtain ⟨rfl, hc⟩ := List.append_inj' h rfl
      exact .inr ⟨List.head_eq_of_cons_eq hc, hodd⟩
    · rw [List.concat_eq_append, ← List.cons_append, ← List.append_assoc] at h
      exact .inl ⟨before, after, (List.append_inj' h rfl).1, hodd⟩
  · rintro (⟨before, after, rfl, hodd⟩ | ⟨rfl, hodd⟩)
    · exact ⟨before, after ++ [c], by simp, hodd⟩
    · exact ⟨name, [], rfl, hodd⟩

theorem openBracket?_escapeBy_of_not_opensEscaped (h : ¬ OpensEscaped name) :
    openBracket? acc (escapeBy isBracket name).reverse = none := by
  induction name using List.reverseRecOn generalizing acc with
  | nil => rfl
  | append_singleton name c ih =>
    rw [opensEscaped_concat, not_or] at h
    rw [openBracket?_escapeBy_concat h.2]
    exact ih h.1

/-- What the search finds in a written name leaves a shorter name that ends in a backslash, the one
that escaped the bracket. -/
theorem openBracket?_escapeBy_of_opensEscaped (acc : List Char) (h : OpensEscaped name) :
    ∃ content front, openBracket? acc (escapeBy isBracket name).reverse =
        some (content ++ acc, (escapeBy isBracket front).reverse) ∧
      front.getLast? = some '\\' ∧ front.length ≤ name.length := by
  induction name using List.reverseRecOn generalizing acc with
  | nil =>
    obtain ⟨before, after, h, -⟩ := h
    simp at h
  | append_singleton name c ih =>
    by_cases hc : c = '[' ∧ Odd (backslashes name)
    · obtain ⟨rfl, hodd⟩ := hc
      refine ⟨[], name ++ ['\\'], ?_, by simp, by simp⟩
      rw [← reverse_escapeBy_backslash, escapeBy_append, List.reverse_append]
      exact openBracket?_open ((isEscaped_backslash_escapeBy name).2 hodd)
    · have hname := (opensEscaped_concat.1 h).resolve_right hc
      obtain ⟨content, front, hopen, hlast, hlen⟩ := ih (escapeBy isBracket [c] ++ acc) hname
      refine ⟨content ++ escapeBy isBracket [c], front, ?_, hlast, ?_⟩
      · rw [openBracket?_escapeBy_concat hc, hopen, List.append_assoc]
      · rw [List.length_append]
        omega

end Open

/-! ## Peeling brackets off -/

section Peel

variable {name key before rest content : List Char} {found : List (List Char)}
  {c : Component} {cs : List Component}

theorem peelBrackets_nil : peelBrackets found [] = (found, []) := by
  rw [peelBrackets]

theorem peelBrackets_stop {d : Char} (h : ¬ (d = ']' ∧ isEscaped before = false)) :
    peelBrackets found (d :: before) = (found, d :: before) := by
  rw [peelBrackets, if_neg (by simpa using h)]

theorem peelBrackets_unmatched (h : openBracket? [] before = none) :
    peelBrackets found (']' :: before) = (found, ']' :: before) := by
  rw [peelBrackets]
  split
  · split
    · next h' => exact absurd (h.symm.trans h') (by simp)
    · rfl
  · rfl

theorem peelBrackets_matched (hb : isEscaped before = false)
    (h : openBracket? [] before = some (content, rest)) :
    peelBrackets found (']' :: before) = peelBrackets (content :: found) rest := by
  rw [peelBrackets, if_pos (by simp [hb])]
  split
  · next h' =>
    obtain ⟨rfl, rfl⟩ := Prod.mk.inj (Option.some.inj (h.symm.trans h'))
    rfl
  · next h' => exact absurd (h.symm.trans h') (by simp)

theorem reverse_append_chars (hc : c.isArrayAccess = true) :
    (key ++ c.chars).reverse = ']' :: (c.content.reverse ++ '[' :: key.reverse) := by
  rw [chars_of_isArrayAccess hc]
  simp

theorem isEscaped_content_append : isEscaped (c.content.reverse ++ '[' :: before) = false := by
  refine isEscaped_of_head?_ne ?_
  cases h : c.content.reverse with
  | nil => simp
  | cons d ds =>
    rintro hd
    obtain rfl : d = '\\' := Option.some.inj hd
    have hmem : '\\' ∈ c.content := List.mem_reverse.1 (h ▸ List.mem_cons_self)
    exact not_mem_content (by decide) (by decide) hmem

/-- Brackets that no backslash escapes are peeled off. -/
theorem peelBrackets_array (hc : c.isArrayAccess = true) (hkey : isEscaped key.reverse = false) :
    peelBrackets found (key ++ c.chars).reverse =
      peelBrackets (c.content :: found) key.reverse := by
  rw [reverse_append_chars hc]
  refine peelBrackets_matched isEscaped_content_append ?_
  rw [openBracket?_reverse_append (not_mem_content (by decide) (by decide)), List.append_nil]
  exact openBracket?_open hkey

theorem peelBrackets_arrays (found : List (List Char)) (hcs : ∀ d ∈ cs, d.isArrayAccess = true)
    (hkey : cs ≠ [] → isEscaped key.reverse = false) :
    peelBrackets found (key ++ bracketChars cs).reverse =
      peelBrackets (cs.map Component.content ++ found) key.reverse := by
  induction cs generalizing key with
  | nil => simp [bracketChars]
  | cons c cs ih =>
    have hc := hcs c List.mem_cons_self
    have hnext : isEscaped (key ++ c.chars).reverse = false := by
      rw [reverse_append_chars hc]
      exact isEscaped_cons_of_ne (by decide)
    have happ : key ++ bracketChars (c :: cs) = key ++ c.chars ++ bracketChars cs := by
      simp [bracketChars]
    rw [happ, ih (fun d hd => hcs d (List.mem_cons_of_mem c hd)) (fun _ => hnext),
      peelBrackets_array hc (hkey (List.cons_ne_nil c cs))]
    rfl

theorem not_closesEscaped_of_getLast? (h : name.getLast? = some '\\') : ¬ ClosesEscaped name := by
  rintro ⟨front, rfl, -⟩
  simp at h

theorem reverse_escapeBy_bracket (front : List Char) :
    (escapeBy isBracket (front ++ [']'])).reverse =
      ']' :: '\\' :: (escapeBy isBracket front).reverse := by
  rw [escapeBy_append, List.reverse_append]
  rfl

/-- Nothing is peeled off a written name that ends otherwise. -/
theorem peelBrackets_escapeBy_of_not_closesEscaped (h : ¬ ClosesEscaped name) :
    peelBrackets found (escapeBy isBracket name).reverse =
      (found, (escapeBy isBracket name).reverse) := by
  rcases List.eq_nil_or_concat name with rfl | ⟨front, d, rfl⟩
  · exact peelBrackets_nil
  · rw [List.concat_eq_append] at h ⊢
    by_cases hd : d = ']'
    · subst hd
      rw [reverse_escapeBy_bracket]
      refine peelBrackets_stop fun hstop => h ⟨front, rfl, ?_⟩
      exact (isEscaped_backslash_escapeBy front).1 hstop.2
    · rw [escapeBy_append, List.reverse_append]
      rcases Bool.eq_false_or_eq_true (isBracket d) with hs | hs
      · rw [escapeBy_cons_of_special hs]
        exact peelBrackets_stop fun hstop => hd hstop.1
      · rw [escapeBy_cons_of_plain hs]
        exact peelBrackets_stop fun hstop => hd hstop.1

theorem peelBrackets_escapeBy (h : ¬ (ClosesEscaped name ∧ OpensEscaped name)) :
    peelBrackets found (escapeBy isBracket name).reverse =
      (found, (escapeBy isBracket name).reverse) := by
  by_cases hclose : ClosesEscaped name
  · have hopen : ¬ OpensEscaped name := fun hopen => h ⟨hclose, hopen⟩
    obtain ⟨front, rfl, -⟩ := hclose
    rw [opensEscaped_concat, not_or] at hopen
    rw [reverse_escapeBy_bracket]
    refine peelBrackets_unmatched ?_
    rw [openBracket?_backslash]
    exact openBracket?_escapeBy_of_not_opensEscaped hopen.1
  · exact peelBrackets_escapeBy_of_not_closesEscaped hclose

/-- A written name that ends like brackets loses its end, and what was between is malformed. -/
theorem peelBrackets_escapeBy_of_closesEscaped (found : List (List Char))
    (hclose : ClosesEscaped name) (hopen : OpensEscaped name) :
    ∃ content front, peelBrackets found (escapeBy isBracket name).reverse =
        (content :: found, (escapeBy isBracket front).reverse) ∧
      '\\' ∈ content ∧ front.getLast? = some '\\' ∧ front.length < name.length := by
  obtain ⟨before, rfl, hodd⟩ := hclose
  have hbefore : OpensEscaped before := (opensEscaped_concat.1 hopen).resolve_right (by simp)
  obtain ⟨content, front, hfound, hlast, hlen⟩ :=
    openBracket?_escapeBy_of_opensEscaped ['\\'] hbefore
  refine ⟨content ++ ['\\'], front, ?_, by simp, hlast, ?_⟩
  · rw [reverse_escapeBy_bracket, peelBrackets_matched
      ((isEscaped_backslash_escapeBy before).2 hodd) (openBracket?_backslash.trans hfound)]
    exact peelBrackets_escapeBy_of_not_closesEscaped (not_closesEscaped_of_getLast? hlast)
  · rw [List.length_append, List.length_singleton]
    omega

end Peel

/-! ## Reading a segment -/

section Read

variable {name key segment rest : List Char} {contents : List (List Char)}
  {c : Component} {cs : List Component}

theorem segmentComponents_of_peel
    (hpeel : peelBrackets [] (unescape '.' segment).reverse = (contents, rest))
    (hcs : bracketComponents contents = .ok cs) :
    segmentComponents segment =
      .ok ((if rest = [] ∧ contents ≠ [] then [] else [keyComponent rest.reverse]) ++ cs) := by
  rw [segmentComponents, hpeel]
  simp only [hcs]

/-- A segment from whose key nothing is peeled is read as the key, if there is one, and the array
components after it. -/
theorem segmentComponents_of_kept (hcs : ∀ d ∈ cs, d.isArrayAccess = true)
    (hl : ∀ d ∈ cs, d.Legible) (hseg : unescape '.' segment = key ++ bracketChars cs)
    (hkey : cs ≠ [] → isEscaped key.reverse = false)
    (hkept : ∀ found, peelBrackets found key.reverse = (found, key.reverse)) :
    segmentComponents segment =
      .ok ((if key = [] ∧ cs ≠ [] then [] else [keyComponent key]) ++ cs) := by
  have hpeel : peelBrackets [] (unescape '.' segment).reverse =
      (cs.map Component.content, key.reverse) := by
    rw [hseg, peelBrackets_arrays [] hcs hkey, hkept, List.append_nil]
  rw [segmentComponents_of_peel hpeel (bracketComponents_content hcs hl), List.reverse_reverse]
  simp only [List.reverse_eq_nil_iff, ne_eq, List.map_eq_nil_iff]

theorem not_mem_bracketChars (hcs : ∀ d ∈ cs, d.isArrayAccess = true) {d : Char}
    (hbracket : isBracket d = false) (hdigit : d.isDigit = false) (hstar : d ≠ '*') :
    d ∉ bracketChars cs := by
  intro hd
  obtain ⟨c, hc, hd⟩ := List.mem_flatMap.1 hd
  rw [chars_of_isArrayAccess (hcs c hc), List.mem_append, List.mem_cons, List.mem_singleton] at hd
  rcases hd with (rfl | hd) | rfl
  · exact absurd hbracket (by decide)
  · exact not_mem_content hdigit hstar hd
  · exact absurd hbracket (by decide)

theorem unescape_bracketChars (hcs : ∀ d ∈ cs, d.isArrayAccess = true) (mark : Char) :
    unescape mark (bracketChars cs) = bracketChars cs :=
  unescape_of_not_mem (not_mem_bracketChars hcs (by decide) (by decide) (by decide))

theorem unescape_dot_segment (hcs : ∀ d ∈ cs, d.isArrayAccess = true) (name : List Char) :
    unescape '.' (escapeMarks name ++ bracketChars cs) =
      escapeBy isBracket name ++ bracketChars cs := by
  have hhead : (bracketChars cs).head? ≠ some '.' := fun h =>
    not_mem_bracketChars hcs (by decide) (by decide) (by decide) (List.mem_of_head? h)
  rw [unescape_dot_escapeMarks name hhead, unescape_bracketChars hcs]

/-- Brackets after an odd number of backslashes are swallowed: one array component is lost. -/
theorem segmentComponents_of_odd (hc : c.isArrayAccess = true)
    (hcs : ∀ d ∈ cs, d.isArrayAccess = true) (hl : ∀ d ∈ cs, d.Legible)
    (hseg : unescape '.' segment = escapeBy isBracket name ++ c.chars ++ bracketChars cs)
    (hodd : Odd (backslashes name)) : ∃ k, segmentComponents segment = .ok (k :: cs) := by
  have hnext : isEscaped (escapeBy isBracket name ++ c.chars).reverse = false := by
    rw [reverse_append_chars hc]
    exact isEscaped_cons_of_ne (by decide)
  have hescaped := (isEscaped_escapeBy_iff name).2 hodd
  have hpeel : peelBrackets [] (unescape '.' segment).reverse =
      peelBrackets (cs.map Component.content)
        (']' :: (c.content.reverse ++ '[' :: (escapeBy isBracket name).reverse)) := by
    rw [hseg, peelBrackets_arrays [] hcs (fun _ => hnext), reverse_append_chars hc, List.append_nil]
  have hsearch : openBracket? [] (c.content.reverse ++ '[' :: (escapeBy isBracket name).reverse) =
      openBracket? ('[' :: c.content) (escapeBy isBracket name).reverse := by
    rw [openBracket?_reverse_append (not_mem_content (by decide) (by decide)), List.append_nil]
    refine openBracket?_cons '[' fun h => ?_
    rw [hescaped] at h
    exact Bool.noConfusion h.2
  by_cases hopen : OpensEscaped name
  · obtain ⟨content, front, hfound, hlast, -⟩ :=
      openBracket?_escapeBy_of_opensEscaped ('[' :: c.content) hopen
    rw [peelBrackets_matched isEscaped_content_append (hsearch.trans hfound),
      peelBrackets_escapeBy_of_not_closesEscaped (not_closesEscaped_of_getLast? hlast)] at hpeel
    have hmem : '[' ∈ content ++ '[' :: c.content := by simp
    have hread :=
      bracketComponents_malformed hmem (by decide) (by decide) (cs.map Component.content)
    have hne : (escapeBy isBracket front).reverse ≠ [] := by
      rw [ne_eq, List.reverse_eq_nil_iff, escapeBy_eq_nil]
      rintro rfl
      simp at hlast
    rw [segmentComponents_of_peel hpeel (hread.trans (bracketComponents_content hcs hl)),
      if_neg fun h => hne h.1]
    exact ⟨_, rfl⟩
  · rw [peelBrackets_unmatched
      (hsearch.trans (openBracket?_escapeBy_of_not_opensEscaped hopen))] at hpeel
    rw [segmentComponents_of_peel hpeel (bracketComponents_content hcs hl),
      if_neg fun h => absurd h.1 (List.cons_ne_nil _ _)]
    exact ⟨_, rfl⟩

/-- A name that ends like brackets is read as a shorter one. -/
theorem segmentComponents_of_closesEscaped (hcs : ∀ d ∈ cs, d.isArrayAccess = true)
    (hl : ∀ d ∈ cs, d.Legible)
    (hseg : unescape '.' segment = escapeBy isBracket name ++ bracketChars cs)
    (hkey : cs ≠ [] → ¬ Odd (backslashes name)) (hclose : ClosesEscaped name)
    (hopen : OpensEscaped name) :
    ∃ shorter, segmentComponents segment = .ok (.key (String.ofList shorter) :: cs) ∧
      shorter.length < name.length := by
  have hescaped : cs ≠ [] → isEscaped (escapeBy isBracket name).reverse = false := by
    intro hne
    rw [Bool.eq_false_iff, ne_eq, isEscaped_escapeBy_iff]
    exact hkey hne
  obtain ⟨content, front, hfound, hmem, hlast, hlen⟩ :=
    peelBrackets_escapeBy_of_closesEscaped (cs.map Component.content) hclose hopen
  have hpeel := peelBrackets_arrays [] hcs hescaped
  rw [← hseg, List.append_nil, hfound] at hpeel
  have hread := bracketComponents_malformed hmem (by decide) (by decide) (cs.map Component.content)
  have hne : front ≠ [] := by
    rintro rfl
    simp at hlast
  have hstar : front ≠ ['*'] := by
    rintro rfl
    simp at hlast
  refine ⟨unescape '*' front, ?_, ?_⟩
  · rw [segmentComponents_of_peel hpeel (hread.trans (bracketComponents_content hcs hl)),
      if_neg (by simp [hne]), List.reverse_reverse, keyComponent_escapeBy, if_neg hstar,
      List.singleton_append]
  · exact Nat.lt_of_le_of_lt (length_unescape_le '*' front) hlen

/-! ## Which segments are read back -/

theorem getLast?_of_odd_backslashes (h : Odd (backslashes name)) : name.getLast? = some '\\' := by
  by_contra hlast
  rw [backslashes_eq_zero hlast] at h
  exact absurd h (by decide)

/-- Before array components, or at the end, a faithful name is one from which nothing is lost. -/
theorem faithful_head?_iff (hcs : ∀ d ∈ cs, d.isArrayAccess = true) :
    Faithful name cs.head? ↔ ¬ ['\\', '*'] <:+: name ∧ (name = [] → cs = []) ∧
      (cs ≠ [] → ¬ Odd (backslashes name)) ∧ ¬ (ClosesEscaped name ∧ OpensEscaped name) := by
  constructor
  · intro h
    refine ⟨h.star, ?_, ?_, h.bracket⟩
    · intro hname
      cases cs with
      | nil => rfl
      | cons c cs =>
        have hc := h.empty hname c rfl
        rw [hcs c List.mem_cons_self] at hc
        exact Bool.noConfusion hc
    · intro hne hodd
      rcases h.last (getLast?_of_odd_backslashes hodd) with hnone | ⟨-, heven⟩
      · exact hne (List.head?_eq_none_iff.1 hnone)
      · exact Nat.not_even_iff_odd.2 hodd heven
  · rintro ⟨hstar, hempty, hodd, hbracket⟩
    refine ⟨hstar, ?_, ?_, hbracket⟩
    · intro hname c hc
      rw [hempty hname] at hc
      cases hc
    · intro _
      cases cs with
      | nil => exact .inl rfl
      | cons c cs =>
        exact .inr ⟨⟨c, rfl, hcs c List.mem_cons_self⟩,
          Nat.not_odd_iff_even.1 (hodd (List.cons_ne_nil c cs))⟩

theorem faithful_asterisk (next : Option Component) : Faithful ['*'] next where
  star h := absurd (h.subset List.mem_cons_self) (by decide)
  empty h := absurd h (by decide)
  last h := absurd h (by decide)
  bracket h := by
    obtain ⟨⟨front, hfront, -⟩, -⟩ := h
    have := congrArg List.getLast? hfront
    simp at this

/-- The asterisk is written with a backslash, and so is no wildcard. -/
theorem segmentComponents_asterisk (hcs : ∀ d ∈ cs, d.isArrayAccess = true)
    (hl : ∀ d ∈ cs, d.Legible) :
    segmentComponents ('\\' :: '*' :: bracketChars cs) = .ok (.key "*" :: cs) := by
  have hhead : ('*' :: bracketChars cs).head? ≠ some '.' := by simp
  have hseg : unescape '.' ('\\' :: '*' :: bracketChars cs) = ['\\', '*'] ++ bracketChars cs := by
    rw [unescape_backslash_of_head_ne hhead, unescape_cons_of_ne (by decide),
      unescape_bracketChars hcs]
    rfl
  rw [segmentComponents_of_kept hcs hl hseg (fun _ => rfl)
    (fun found => peelBrackets_stop (by simp)), if_neg (by simp)]
  rfl

/-- **Reading a key back.** The written form of a key and of the array components after it is read
back exactly if the key is faithful. -/
theorem segmentComponents_key_iff (hcs : ∀ d ∈ cs, d.isArrayAccess = true)
    (hl : ∀ d ∈ cs, d.Legible) (name : List Char) :
    segmentComponents (escapeKey name ++ bracketChars cs) = .ok (.key (String.ofList name) :: cs) ↔
      Faithful name cs.head? := by
  by_cases hstar : name = ['*']
  · subst hstar
    exact iff_of_true (segmentComponents_asterisk hcs hl) (faithful_asterisk _)
  have hseg := unescape_dot_segment hcs name
  rw [escapeKey, if_neg hstar, faithful_head?_iff hcs]
  by_cases hodd : cs ≠ [] ∧ Odd (backslashes name)
  · refine iff_of_false ?_ fun h => h.2.2.1 hodd.1 hodd.2
    obtain ⟨c, cs, rfl⟩ := List.exists_cons_of_ne_nil hodd.1
    rw [List.forall_mem_cons] at hcs hl
    have hlost : unescape '.' (escapeMarks name ++ bracketChars (c :: cs)) =
        escapeBy isBracket name ++ c.chars ++ bracketChars cs := by
      rw [hseg]
      simp [bracketChars]
    obtain ⟨k, hread⟩ := segmentComponents_of_odd hcs.1 hcs.2 hl.2 hlost hodd.2
    rw [hread]
    intro h
    have hlen := congrArg List.length (Except.ok.inj h)
    simp at hlen
  have hkey : cs ≠ [] → ¬ Odd (backslashes name) := fun hne h => hodd ⟨hne, h⟩
  by_cases hbracket : ClosesEscaped name ∧ OpensEscaped name
  · refine iff_of_false ?_ fun h => h.2.2.2 hbracket
    obtain ⟨shorter, hread, hlt⟩ :=
      segmentComponents_of_closesEscaped hcs hl hseg hkey hbracket.1 hbracket.2
    rw [hread]
    intro h
    have hname := Component.key.inj (List.head_eq_of_cons_eq (Except.ok.inj h))
    rw [String.ofList_injective hname] at hlt
    exact Nat.lt_irrefl _ hlt
  · have hescaped : cs ≠ [] → isEscaped (escapeBy isBracket name).reverse = false := by
      intro hne
      rw [Bool.eq_false_iff, ne_eq, isEscaped_escapeBy_iff]
      exact hkey hne
    rw [segmentComponents_of_kept hcs hl hseg hescaped fun _ => peelBrackets_escapeBy hbracket,
      ← unescape_eq_self_iff]
    simp only [escapeBy_eq_nil]
    by_cases hlost : name = [] ∧ cs ≠ []
    · rw [if_pos hlost]
      refine iff_of_false ?_ fun h => hlost.2 (h.2.1 hlost.1)
      intro h
      have hlen := congrArg List.length (Except.ok.inj h)
      simp at hlen
    · rw [if_neg hlost, keyComponent_escapeBy, if_neg hstar, List.singleton_append, Except.ok.injEq,
        List.cons.injEq, Component.key.injEq, String.ofList_inj]
      exact ⟨fun h => ⟨h.1, fun hname => not_not.1 fun hne => hlost ⟨hname, hne⟩, hkey, hbracket⟩,
        fun h => ⟨h.1, rfl⟩⟩

/-- **Reading a segment back.** The written form of a component and of the array components after
it is read back exactly if the component is no key, or a faithful one. -/
theorem segmentComponents_chars_iff (hcs : ∀ d ∈ cs, d.isArrayAccess = true)
    (hl : ∀ d ∈ c :: cs, d.Legible) :
    segmentComponents (c.chars ++ bracketChars cs) = .ok (c :: cs) ↔
      ∀ name, c = .key name → Faithful name.toList cs.head? := by
  have hl' := (List.forall_mem_cons.1 hl).2
  by_cases hc : c.isArrayAccess = true
  · have hall : ∀ d ∈ c :: cs, d.isArrayAccess = true := List.forall_mem_cons.2 ⟨hc, hcs⟩
    have hseg : unescape '.' (bracketChars (c :: cs)) = [] ++ bracketChars (c :: cs) :=
      unescape_bracketChars hall '.'
    have hread := segmentComponents_of_kept hall hl hseg (fun _ => rfl) fun _ => peelBrackets_nil
    refine iff_of_true hread ?_
    rintro name rfl
    exact absurd hc (by simp [Component.isArrayAccess])
  cases c with
  | index | anyIndex => exact absurd rfl hc
  | key name =>
    have hiff := segmentComponents_key_iff hcs hl' name.toList
    rw [String.ofList_toList] at hiff
    refine hiff.trans ⟨?_, fun h => h name rfl⟩
    rintro h _ ⟨⟩
    exact h
  | anyKey =>
    have hseg : unescape '.' ('*' :: bracketChars cs) = ['*'] ++ bracketChars cs := by
      rw [unescape_cons_of_ne (by decide), unescape_bracketChars hcs]
      rfl
    refine iff_of_true ?_ (by simp)
    have hread := segmentComponents_of_kept hcs hl' hseg (fun _ => rfl)
      fun _ => peelBrackets_stop (by simp)
    exact hread

end Read

end Path

end JsonExpect
