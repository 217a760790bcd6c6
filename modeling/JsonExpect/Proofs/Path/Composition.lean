import JsonExpect.Proofs.Path.Bracket
import JsonExpect.Proofs.Path.RoundTrip

/-!
# Paths put together

What is written behind a text does not change how the text itself is read, be it well formed or
not. A dot that is not escaped starts afresh (`parseChars_append_dot`), and brackets behind a
segment add the component they hold, or nothing (`segmentComponents_append_brackets`). Without a run
of digits too long for a numeral every text is read (`exists_parseChars`), so the components of the
parts, one after the other, are those of the whole (`parse_append`).
-/

namespace JsonExpect.Path

/-- No run of digits in the text is too long for a numeral. -/
def ShortNumerals (text : List Char) : Prop :=
  ∀ digits, digits <:+: text → (∀ d ∈ digits, d.isDigit = true) → digits.length ≤ longestNumeral

/-- Every dot of the text directly follows a backslash. -/
def Whole (text : List Char) : Prop :=
  ∀ before after, text = before ++ '.' :: after → before.getLast? = some '\\'

/-- The end of a text after its last dot that does not directly follow a backslash, or all of it. -/
structure LastSegment (text last : List Char) : Prop where
  cut : text = last ∨ ∃ front, text = front ++ '.' :: last ∧ front.getLast? ≠ some '\\'
  whole : Whole last

variable {text last content segment digits s t : List Char} {contents : List (List Char)}

/-! ## Cutting at dots -/

theorem suffix_after_dot (front last : List Char) : last <:+ front ++ '.' :: last :=
  (List.suffix_cons '.' last).trans (List.suffix_append front _)

theorem whole_nil : Whole [] := by
  intro before after h
  simp at h

theorem whole_concat_iff {c : Char} :
    Whole (text ++ [c]) ↔ Whole text ∧ (c = '.' → text.getLast? = some '\\') := by
  constructor
  · intro h
    refine ⟨fun before after hsplit => h before (after ++ [c]) (by simp [hsplit]), ?_⟩
    rintro rfl
    exact h text [] rfl
  · rintro ⟨h, hc⟩ before after hsplit
    rcases List.eq_nil_or_concat after with rfl | ⟨after, d, rfl⟩
    · obtain ⟨rfl, hdot⟩ := List.append_inj' hsplit rfl
      exact hc (List.head_eq_of_cons_eq hdot)
    · rw [List.concat_eq_append, ← List.cons_append, ← List.append_assoc] at hsplit
      exact h before after (List.append_inj' hsplit rfl).1

theorem Whole.unbroken (h : Whole text) : Unbroken text := by
  induction hlen : text.length using Nat.strong_induction_on generalizing text with
  | _ n ih =>
    rcases List.eq_nil_or_concat text with rfl | ⟨front, c, rfl⟩
    · exact unbroken_nil
    rw [List.concat_eq_append] at h hlen ⊢
    obtain ⟨hfront, hdot⟩ := whole_concat_iff.1 h
    by_cases hc : c = '.'
    · -- the dot belongs to the backslash before it
      obtain ⟨start, rfl⟩ := List.getLast?_eq_some_iff.1 (hdot hc)
      rw [List.append_assoc]
      refine (ih start.length ?_ (whole_concat_iff.1 hfront).1 rfl).append (unbroken_escaped c)
      rw [← hlen]
      simp only [List.length_append, List.length_singleton]
      omega
    · refine (ih front.length ?_ hfront rfl).append (unbroken_singleton hc)
      rw [← hlen]
      simp

/-- Every text has a last segment. -/
theorem exists_lastSegment (text : List Char) : ∃ last, LastSegment text last := by
  induction text using List.reverseRecOn with
  | nil => exact ⟨[], .inl rfl, whole_nil⟩
  | append_singleton text c ih =>
    by_cases hc : c = '.' ∧ text.getLast? ≠ some '\\'
    · obtain ⟨rfl, hlast⟩ := hc
      exact ⟨[], .inr ⟨text, rfl, hlast⟩, whole_nil⟩
    obtain ⟨last, hcut, hwhole⟩ := ih
    rw [not_and, not_not] at hc
    refine ⟨last ++ [c], ?_, whole_concat_iff.2 ⟨hwhole, fun hdot => ?_⟩⟩
    · obtain rfl | ⟨front, rfl, hfront⟩ := hcut
      · exact .inl rfl
      · exact .inr ⟨front, by simp, hfront⟩
    · obtain rfl | ⟨front, rfl, hfront⟩ := hcut
      · exact hc hdot
      · have hlast := hc hdot
        rw [List.getLast?_append_cons, List.getLast?_cons] at hlast
        cases h : last.getLast? with
        | none => simp [h] at hlast
        | some d => rwa [h] at hlast

/-- A text has only one last segment. -/
theorem LastSegment.unique {last' : List Char} (h : LastSegment text last)
    (h' : LastSegment text last') : last = last' := by
  have hsuffix : ∀ {l}, LastSegment text l → l <:+ text := by
    rintro l ⟨rfl | ⟨front, rfl, -⟩, -⟩
    · exact List.suffix_refl _
    · exact suffix_after_dot front l
  have hle : ∀ {l m}, LastSegment text l → LastSegment text m → l.length ≤ m.length → l = m := by
    intro l m hl hm hlen
    obtain ⟨between, rfl⟩ := List.suffix_of_suffix_length_le (hsuffix hl) (hsuffix hm) hlen
    obtain ⟨start, hstart⟩ := hsuffix hm
    rcases List.eq_nil_or_concat between with rfl | ⟨between, c, rfl⟩
    · rfl
    exfalso
    rw [List.concat_eq_append] at hm hstart
    rcases hl.cut with rfl | ⟨front, rfl, hfront⟩
    · have := congrArg List.length hstart
      simp only [List.length_append, List.length_singleton] at this
      omega
    · have hsplit : (start ++ between ++ [c]) ++ l = (front ++ ['.']) ++ l := by simpa using hstart
      obtain ⟨rfl, hc⟩ := List.append_inj' (List.append_cancel_right hsplit) rfl
      obtain rfl : c = '.' := List.head_eq_of_cons_eq hc
      have hescaped := hm.whole between l (by simp)
      exact hfront (by rw [List.getLast?_append, hescaped]; rfl)
  rcases Nat.le_total last.length last'.length with hlen | hlen
  · exact hle h h' hlen
  · exact (hle h' h hlen).symm

/-- A text is one segment, or such a segment behind a shorter text and a dot. -/
theorem cutInduction {motive : List Char → Prop} (single : ∀ last, Unbroken last → motive last)
    (more : ∀ front last, front.getLast? ≠ some '\\' → Unbroken last → motive front →
      motive (front ++ '.' :: last)) (text : List Char) : motive text := by
  induction hlen : text.length using Nat.strong_induction_on generalizing text with
  | _ n ih =>
    obtain ⟨last, rfl | ⟨front, rfl, hfront⟩, hwhole⟩ := exists_lastSegment text
    · exact single _ hwhole.unbroken
    · refine more front last hfront hwhole.unbroken (ih front.length ?_ front rfl)
      rw [← hlen]
      simp

theorem segments_append_dot (hs : s.getLast? ≠ some '\\') (t : List Char) :
    segments false (s ++ '.' :: t) = segments false s ++ segments false t := by
  induction s using cutInduction generalizing t with
  | single last h => rw [h.segments_cut hs, h.segments_eq, List.singleton_append]
  | more front last hfront h ih =>
    have hlast : last.getLast? ≠ some '\\' := by
      intro hlast
      rw [List.getLast?_append_cons, List.getLast?_cons, hlast] at hs
      exact hs rfl
    rw [List.append_assoc, List.cons_append, ih hfront, ih hfront, h.segments_cut hlast,
      h.segments_eq, List.append_assoc, List.singleton_append]

/-! ## What is written behind a segment -/

theorem getLast?_unescape (mark : Char) (text : List Char) :
    (unescape mark text).getLast? = text.getLast? := by
  fun_induction unescape mark text with
  | case1 => rfl
  | case2 => rfl
  | case3 c d rest h ih =>
    rw [List.getLast?_cons, ih, List.getLast?_cons_cons, List.getLast?_cons, h.2]
  | case4 c d rest _ ih =>
    rw [List.getLast?_cons, ih, List.getLast?_cons_cons, List.getLast?_cons]
    rfl

theorem unescape_append {mark : Char} {rest : List Char} (h : rest.head? ≠ some mark)
    (text : List Char) :
    unescape mark (text ++ rest) = unescape mark text ++ unescape mark rest := by
  fun_induction unescape mark text with
  | case1 => rfl
  | case2 c =>
    by_cases hc : c = '\\'
    · rw [hc]
      exact unescape_backslash_of_head_ne h
    · exact unescape_cons_of_ne hc
  | case3 c d text hmark ih =>
    obtain ⟨rfl, rfl⟩ := hmark
    exact (unescape_backslash_mark).trans (congrArg _ ih)
  | case4 c d text hmark ih =>
    rw [List.cons_append, List.cons_append, unescape, if_neg hmark]
    exact congrArg _ ih

theorem backslashes_unescape {mark : Char} (hmark : mark ≠ '\\') (text : List Char) :
    backslashes (unescape mark text) = backslashes text := by
  induction text using List.reverseRecOn with
  | nil => rfl
  | append_singleton text c ih =>
    by_cases hc : c = '\\'
    · subst hc
      have hhead : ['\\'].head? ≠ some mark := fun h => hmark (Option.some.inj h).symm
      rw [unescape_append hhead]
      exact (backslashes_concat_backslash _).trans
        ((congrArg _ ih).trans (backslashes_concat_backslash text).symm)
    · rw [backslashes_concat_of_ne text hc]
      refine backslashes_eq_zero ?_
      rw [getLast?_unescape, List.getLast?_concat]
      exact fun h => hc (Option.some.inj h)

/-! ## Short numerals -/

theorem ShortNumerals.within (h : ShortNumerals t) (hs : s <:+: t) : ShortNumerals s :=
  fun digits hdigits => h digits (hdigits.trans hs)

/-- What a text ends in once a mark is undone is the end of the text with the mark undone. -/
theorem exists_suffix_of_unescape {mark : Char} (h : s <:+ unescape mark text) :
    ∃ t, t <:+ text ∧ s = unescape mark t := by
  fun_induction unescape mark text with
  | case1 => exact ⟨[], List.suffix_refl _, List.suffix_nil.1 h⟩
  | case2 c =>
    rcases List.suffix_cons_iff.1 h with rfl | h
    · exact ⟨[c], List.suffix_refl _, rfl⟩
    · exact ⟨[], List.nil_suffix, List.suffix_nil.1 h⟩
  | case3 c d rest hmark ih =>
    rcases List.suffix_cons_iff.1 h with rfl | h
    · refine ⟨c :: d :: rest, List.suffix_refl _, ?_⟩
      rw [unescape, if_pos hmark]
    · obtain ⟨t, ht, rfl⟩ := ih h
      exact ⟨t, (ht.trans (List.suffix_cons d rest)).trans (List.suffix_cons c _), rfl⟩
  | case4 c d rest hmark ih =>
    rcases List.suffix_cons_iff.1 h with rfl | h
    · refine ⟨c :: d :: rest, List.suffix_refl _, ?_⟩
      rw [unescape, if_neg hmark]
    · obtain ⟨t, ht, rfl⟩ := ih h
      exact ⟨t, ht.trans (List.suffix_cons c _), rfl⟩

/-- Digits at the front stand there before a mark is undone. -/
theorem prefix_of_unescape {mark : Char} (hmark : mark.isDigit = false)
    (hdigits : ∀ d ∈ digits, d.isDigit = true) (h : digits <+: unescape mark text) :
    digits <+: text := by
  fun_induction unescape mark text generalizing digits with
  | case1 => exact h
  | case2 => exact h
  | case3 c d rest _ _ =>
    obtain rfl | ⟨digits, rfl, -⟩ := List.prefix_cons_iff.1 h
    · exact List.nil_prefix
    · rw [hdigits mark List.mem_cons_self] at hmark
      cases hmark
  | case4 c d rest _ ih =>
    obtain rfl | ⟨digits, rfl, hrest⟩ := List.prefix_cons_iff.1 h
    · exact List.nil_prefix
    · exact List.cons_prefix_cons.2 ⟨rfl, ih (List.forall_mem_cons.1 hdigits).2 hrest⟩

theorem shortNumerals_of_length (h : text.length ≤ longestNumeral) : ShortNumerals text :=
  fun _ hdigits _ => Nat.le_trans hdigits.length_le h

/-- Undoing a mark puts no digits together. -/
theorem ShortNumerals.unescape {mark : Char} (hmark : mark.isDigit = false)
    (h : ShortNumerals text) : ShortNumerals (unescape mark text) := by
  intro digits hin hdigits
  obtain ⟨end', hpre, hsuf⟩ := List.infix_iff_prefix_suffix.1 hin
  obtain ⟨t, ht, rfl⟩ := exists_suffix_of_unescape hsuf
  exact h digits ((prefix_of_unescape hmark hdigits hpre).isInfix.trans ht.isInfix) hdigits

theorem ShortNumerals.of_enclose (h : ShortNumerals (text ++ enclose contents)) :
    ∀ content ∈ contents, ShortNumerals content := by
  intro content hc
  obtain ⟨before, after, rfl⟩ := List.append_of_mem hc
  refine h.within ⟨text ++ enclose before ++ ['['], ']' :: enclose after, ?_⟩
  simp [enclose]

/-- Short contents are read one by one. -/
theorem bracketComponents_eq (h : ∀ content ∈ contents, ShortNumerals content) :
    bracketComponents contents = .ok (contents.flatMap bracketed) := by
  induction contents with
  | nil => rfl
  | cons content contents ih =>
    obtain ⟨hcontent, hcontents⟩ := List.forall_mem_cons.1 h
    have hread : ∃ found, bracketComponent content = .ok found ∧
        found.toList = bracketed content := by
      unfold bracketComponent bracketed
      simp only [List.all_eq_true]
      split
      · exact ⟨_, rfl, rfl⟩
      · split
        · next hdigits =>
          rw [if_neg (Nat.not_lt.2 (hcontent content (List.infix_refl _) hdigits.2))]
          exact ⟨_, rfl, rfl⟩
        · exact ⟨_, rfl, rfl⟩
    obtain ⟨found, hfound, hlist⟩ := hread
    rw [bracketComponents, hfound, ih hcontents, List.flatMap_cons, ← hlist]

/-! ## Reading the parts -/

/-- A segment is read as its key, unless it is made of brackets alone, and as what the brackets
hold. -/
theorem segmentComponents_eq {left : List Char}
    (hpeel : peelBrackets [] (unescape '.' segment).reverse = (contents, left.reverse))
    (hcontents : ∀ content ∈ contents, ShortNumerals content) :
    segmentComponents segment =
      .ok ((if left = [] ∧ contents ≠ [] then [] else [keyComponent left]) ++
        contents.flatMap bracketed) := by
  rw [segmentComponents_of_peel hpeel (bracketComponents_eq hcontents), List.reverse_reverse]
  simp only [List.reverse_eq_nil_iff]

/-- The key and the bracket contents of a segment, and what the segment is read as. -/
theorem exists_segmentComponents_eq (h : ShortNumerals segment) :
    ∃ left contents,
      (∀ found, peelBrackets found (unescape '.' segment).reverse =
        (contents ++ found, left.reverse)) ∧
      unescape '.' segment = left ++ enclose contents ∧
      (∀ content ∈ contents, ShortNumerals content) ∧
      segmentComponents segment =
        .ok ((if left = [] ∧ contents ≠ [] then [] else [keyComponent left]) ++
          contents.flatMap bracketed) := by
  obtain ⟨left, contents, hpeel, hsplit, -⟩ := exists_peelBrackets (unescape '.' segment)
  have hcontents : ∀ content ∈ contents, ShortNumerals content :=
    ShortNumerals.of_enclose (hsplit ▸ h.unescape (by decide))
  have hnil := hpeel []
  rw [List.append_nil] at hnil
  exact ⟨left, contents, hpeel, hsplit, hcontents, segmentComponents_eq hnil hcontents⟩

theorem exists_segmentComponents (h : ShortNumerals segment) :
    ∃ cs, segmentComponents segment = .ok cs := by
  obtain ⟨left, contents, -, -, -, hcs⟩ := exists_segmentComponents_eq h
  exact ⟨_, hcs⟩

/-- **Brackets behind a segment.** They add what they hold to what is read before them. -/
theorem segmentComponents_append_brackets {cs : List Component}
    (hcs : segmentComponents segment = .ok cs) (hne : segment ≠ [])
    (hodd : ¬ Odd (backslashes segment)) (hsegment : ShortNumerals segment)
    (henclosed : Enclosed content) (hback : '\\' ∉ content) (hcontent : ShortNumerals content) :
    segmentComponents (segment ++ '[' :: content ++ [']']) = .ok (cs ++ bracketed content) := by
  obtain ⟨left, contents, hpeel, hsplit, hcontents, hread⟩ := exists_segmentComponents_eq hsegment
  obtain rfl := Except.ok.inj (hcs.symm.trans hread)
  have hplain : '\\' ∉ '[' :: content ++ [']'] := by simpa using hback
  have hunescape : unescape '.' (segment ++ '[' :: content ++ [']']) =
      unescape '.' segment ++ '[' :: content ++ [']'] := by
    rw [List.append_assoc, unescape_append (by simp), unescape_of_not_mem hplain, List.append_assoc]
  have hpeel' : peelBrackets [] (unescape '.' (segment ++ '[' :: content ++ [']'])).reverse =
      (contents ++ [content], left.reverse) := by
    rw [hunescape, peelBrackets_enclosed henclosed, hpeel]
    rwa [backslashes_unescape (by decide)]
  have hall : ∀ c ∈ contents ++ [content], ShortNumerals c :=
    List.forall_mem_append.2 ⟨hcontents, by simpa using hcontent⟩
  -- a segment that is not empty has a key, or brackets already
  have hkey : (left = [] ∧ contents ++ [content] ≠ []) ↔ (left = [] ∧ contents ≠ []) := by
    refine and_congr_right fun hleft => iff_of_true (by simp) ?_
    rintro rfl
    rw [hleft] at hsplit
    have hlast := getLast?_unescape '.' segment
    rw [hsplit] at hlast
    exact hne (List.getLast?_eq_none_iff.1 hlast.symm)
  rw [segmentComponents_eq hpeel' hall, List.flatMap_append, List.flatMap_singleton,
    List.append_assoc]
  simp only [hkey]

theorem segmentsComponents_append {xs ys : List (List Char)} {cs ds : List Component}
    (hcs : segmentsComponents xs = .ok cs) (hds : segmentsComponents ys = .ok ds) :
    segmentsComponents (xs ++ ys) = .ok (cs ++ ds) := by
  induction xs generalizing cs with
  | nil =>
    obtain rfl := Except.ok.inj hcs
    exact hds
  | cons x xs ih =>
    obtain ⟨front, back, hfront, hback, rfl⟩ := segmentsComponents_cons_eq_ok.1 hcs
    rw [List.append_assoc]
    exact segmentsComponents_cons_eq_ok.2 ⟨front, back ++ ds, hfront, ih hback, rfl⟩

/-- **Texts at a dot.** What is written behind a dot that is not escaped is read on its own. -/
theorem parseChars_append_dot {cs ds : List Component} (hs : s.getLast? ≠ some '\\')
    (hcs : parseChars s = .ok cs) (hds : parseChars t = .ok ds) :
    parseChars (s ++ '.' :: t) = .ok (cs ++ ds) := by
  rw [parseChars, segments_append_dot hs]
  exact segmentsComponents_append hcs hds

theorem parseChars_of_unbroken {cs : List Component} (h : Unbroken text)
    (hcs : segmentComponents text = .ok cs) : parseChars text = .ok cs := by
  rw [parseChars, h.segments_eq]
  exact segmentsComponents_cons_eq_ok.2 ⟨cs, [], hcs, rfl, (List.append_nil cs).symm⟩

/-- A text without a run of too many digits is read. -/
theorem exists_parseChars (h : ShortNumerals text) : ∃ cs, parseChars text = .ok cs := by
  induction text using cutInduction with
  | single last hlast =>
    obtain ⟨cs, hcs⟩ := exists_segmentComponents h
    exact ⟨cs, parseChars_of_unbroken hlast hcs⟩
  | more front last hfront hlast ih =>
    obtain ⟨cs, hcs⟩ := ih (h.within (List.prefix_append _ _).isInfix)
    obtain ⟨ds, hds⟩ := exists_segmentComponents
      (h.within (suffix_after_dot front last).isInfix)
    exact ⟨cs ++ ds, parseChars_append_dot hfront hcs (parseChars_of_unbroken hlast hds)⟩

/-- **Texts before brackets.** Brackets behind a segment that is not empty, not kept from opening by
a backslash, add what they hold. -/
theorem parseChars_append_brackets {cs : List Component} (hcs : parseChars s = .ok cs)
    (hs : ShortNumerals s) (hlast : LastSegment s last) (hne : last ≠ [])
    (hodd : ¬ Odd (backslashes s)) (hcontent : ShortNumerals content)
    (hplain : ∀ c ∈ ['[', ']', '.', '\\'], c ∉ content) :
    parseChars (s ++ '[' :: content ++ [']']) = .ok (cs ++ bracketed content) := by
  have hback : '\\' ∉ content := hplain _ (by simp)
  have henclosed := enclosed_of_not_mem (hplain '[' (by simp)) hback
  have hdot : '.' ∉ '[' :: content ++ [']'] := by simpa using hplain '.' (by simp)
  have hbrackets : ∀ ds, segmentComponents last = .ok ds → ShortNumerals last →
      ¬ Odd (backslashes last) →
      parseChars (last ++ '[' :: content ++ [']']) = .ok (ds ++ bracketed content) := by
    intro ds hds hshort heven
    refine parseChars_of_unbroken ?_
      (segmentComponents_append_brackets hds hne heven hshort henclosed hback hcontent)
    rw [List.append_assoc]
    exact hlast.whole.unbroken.append (unbroken_of_not_mem hdot)
  rcases hlast.cut with rfl | ⟨front, rfl, hfront⟩
  · obtain ⟨ds, hds⟩ := exists_segmentComponents hs
    obtain rfl := Except.ok.inj (hcs.symm.trans (parseChars_of_unbroken hlast.whole.unbroken hds))
    exact hbrackets cs hds hs hodd
  · have hshort : ShortNumerals last :=
      hs.within (suffix_after_dot front last).isInfix
    rw [odd_backslashes_append_cons_iff (by decide)] at hodd
    obtain ⟨ds, hds⟩ := exists_segmentComponents hshort
    obtain ⟨bs, hbs⟩ := exists_parseChars (hs.within (List.prefix_append front _).isInfix)
    obtain rfl := Except.ok.inj (hcs.symm.trans
      (parseChars_append_dot hfront hbs (parseChars_of_unbroken hlast.whole.unbroken hds)))
    have hrest := parseChars_append_dot hfront hbs (hbrackets ds hds hshort hodd)
    rw [List.append_assoc bs, ← hrest]
    simp

/-! ## Paths -/

theorem parse_eq_ok_iff {text : String} {p : Path} :
    parse text = .ok p ↔ parseChars text.toList = .ok p.components := by
  obtain ⟨cs⟩ := p
  rw [parse]
  cases parseChars text.toList <;> simp

/-- **Paths put together.** Of texts without a run of too many digits, two with a dot between them
are read as the components of the first and then those of the second, unless a backslash stands
before the dot. Brackets behind a text whose last segment is not empty add the index wildcard, the
index they hold, or nothing, unless a backslash keeps them from opening. -/
theorem parse_append {s t content : String} (hs : ShortNumerals s.toList)
    (ht : ShortNumerals t.toList) (hcontent : ShortNumerals content.toList)
    (hplain : ∀ c ∈ ['[', ']', '.', '\\'], c ∉ content.toList) :
    ∃ p q, parse s = .ok p ∧ parse t = .ok q ∧
      (s.toList.getLast? ≠ some '\\' → parse (s ++ "." ++ t) = .ok (p ++ q)) ∧
      (∃! last, LastSegment s.toList last) ∧
      ∀ last, LastSegment s.toList last → last ≠ [] → ¬ Odd (backslashes s.toList) →
        parse (s ++ "[" ++ content ++ "]") = .ok (p ++ ⟨bracketed content.toList⟩) := by
  obtain ⟨cs, hcs⟩ := exists_parseChars hs
  obtain ⟨ds, hds⟩ := exists_parseChars ht
  refine ⟨⟨cs⟩, ⟨ds⟩, parse_eq_ok_iff.2 hcs, parse_eq_ok_iff.2 hds, fun hlast => ?_, ?_, ?_⟩
  · have hchars : (s ++ "." ++ t).toList = s.toList ++ '.' :: t.toList := by simp
    rw [parse_eq_ok_iff, hchars]
    exact parseChars_append_dot hlast hcs hds
  · obtain ⟨last, hlast⟩ := exists_lastSegment s.toList
    exact ⟨last, hlast, fun _ hother => hother.unique hlast⟩
  · intro last hlast hne hodd
    have hchars : (s ++ "[" ++ content ++ "]").toList =
        s.toList ++ '[' :: content.toList ++ [']'] := by simp
    rw [parse_eq_ok_iff, hchars]
    exact parseChars_append_brackets hcs hs hlast hne hodd hcontent hplain

/-- Texts with stray brackets and backslashes, and an index that begins with a zero. -/
theorem parse_append_stray :
    let s := "a\\.b].[x]c["
    let t := "]*\\"
    let content := "07"
    ShortNumerals s.toList ∧ ShortNumerals t.toList ∧ ShortNumerals content.toList ∧
      (∀ c ∈ ['[', ']', '.', '\\'], c ∉ content.toList) ∧ s.toList.getLast? ≠ some '\\' ∧
      LastSegment s.toList "[x]c[".toList ∧ ¬ Odd (backslashes s.toList) ∧
      ∃ p q, parse s = .ok p ∧ parse t = .ok q ∧ parse (s ++ "." ++ t) = .ok (p ++ q) ∧
        parse (s ++ "[" ++ content ++ "]") = .ok (p ++ ⟨[.index 7]⟩) := by
  intro s t content
  have hs : ShortNumerals s.toList := shortNumerals_of_length (by decide)
  have ht : ShortNumerals t.toList := shortNumerals_of_length (by decide)
  have hcontent : ShortNumerals content.toList := shortNumerals_of_length (by decide)
  have hplain : ∀ c ∈ ['[', ']', '.', '\\'], c ∉ content.toList := by simp [content]
  have hdot : s.toList.getLast? ≠ some '\\' := by decide +kernel
  have hlast : LastSegment s.toList "[x]c[".toList := by
    refine ⟨.inr ⟨"a\\.b]".toList, by decide +kernel, by decide +kernel⟩, fun before after h => ?_⟩
    exact absurd (h ▸ by simp : '.' ∈ "[x]c[".toList) (by decide +kernel)
  have hodd : ¬ Odd (backslashes s.toList) := by decide +kernel
  have hindex : bracketed content.toList = [.index 7] := by decide +kernel
  obtain ⟨p, q, hp, hq, hpq, -, hbrackets⟩ := parse_append hs ht hcontent hplain
  rw [hindex] at hbrackets
  exact ⟨hs, ht, hcontent, hplain, hdot, hlast, hodd, p, q, hp, hq, hpq hdot,
    hbrackets _ hlast (by decide +kernel) hodd⟩

end JsonExpect.Path
