import Mathlib.Data.List.Forall2
import JsonExpect.Json.Token

/-!
# Cutting written text into tokens

The text of a scalar is cut into the scalar's own token, whatever stands behind it that a numeral
does not go on with (`CutInto`): a string ends with its quote, a word with its last letter, and a
numeral where no digit, point or exponent follows. Texts that are cut into tokens can be joined,
with separators between them and brackets around them.
-/

namespace JsonExpect.Json

/-! ## Numerals -/

/-- No numeral goes on with the text. -/
def EndsNumeral (cs : List Char) : Prop :=
  ∀ c ∈ cs.head?, c.isDigit = false ∧ c ≠ '.' ∧ c ≠ 'e' ∧ c ≠ 'E'

/-- An integer has few enough digits to be read. -/
def Dialect.Admits (d : Dialect) (n : Int) : Prop :=
  ∀ k ∈ d.digitLimit, (Nat.toDigits 10 n.natAbs).length ≤ k

theorem endsNumeral_nil : EndsNumeral [] := nofun

theorem endsNumeral_cons {c : Char} {cs : List Char} (hc : c ∈ [',', ':', ']', '}']) :
    EndsNumeral (c :: cs) := by
  have hmarks : [',', ':', ']', '}'].all
      (fun c => c.isDigit = false ∧ c ≠ '.' ∧ c ≠ 'e' ∧ c ≠ 'E') = true := by decide
  intro d hd
  cases hd
  exact of_decide_eq_true (List.all_eq_true.1 hmarks c hc)

theorem EndsNumeral.append {cs rest : List Char} (h : EndsNumeral cs) (hrest : EndsNumeral rest) :
    EndsNumeral (cs ++ rest) := by
  cases cs with
  | nil => exact hrest
  | cons c cs => exact h

section Numeral

variable {rest : List Char}

theorem spanDigits_append {ds : List Char} (hds : ∀ c ∈ ds, c.isDigit = true)
    (hrest : EndsNumeral rest) : spanDigits (ds ++ rest) = (ds, rest) := by
  have hnone : rest.takeWhile Char.isDigit = [] ∧ rest.dropWhile Char.isDigit = rest := by
    cases rest with
    | nil => exact ⟨rfl, rfl⟩
    | cons c cs => simp [(hrest c rfl).1]
  rw [spanDigits, List.takeWhile_append_of_pos hds, List.dropWhile_append_of_pos hds, hnone.1,
    hnone.2, List.append_nil]

theorem isDigit_of_mem_toDigits {n : Nat} : ∀ c ∈ Nat.toDigits 10 n, c.isDigit = true :=
  fun _ hc => Nat.isDigit_of_mem_toDigits (by decide) (by decide) hc

theorem exists_toDigits_eq_cons (n : Nat) :
    ∃ c cs, Nat.toDigits 10 n = c :: cs ∧ c.isDigit = true ∧ c ≠ '-' := by
  obtain ⟨c, cs, hcs⟩ := List.exists_cons_of_ne_nil (Nat.toDigits_ne_nil (n := n) (b := 10))
  have hdigit : c.isDigit = true := isDigit_of_mem_toDigits (n := n) c (by rw [hcs]; simp)
  exact ⟨c, cs, hcs, hdigit, by rintro rfl; cases hdigit⟩

/-- Only zero is written with a zero in front. -/
theorem toDigits_ne_zero_cons {n : Nat} (hn : 0 < n) (ds : List Char) :
    Nat.toDigits 10 n ≠ '0' :: ds := by
  induction n using Nat.strongRecOn generalizing ds with
  | ind n ih =>
    rw [Nat.toDigits_eq_if (by decide)]
    split
    · next hlt =>
      have hdigit : ∀ m < 10, 0 < m → Nat.digitChar m ≠ '0' := by decide
      exact fun h => hdigit n hlt hn (List.cons.inj h).1
    · next hge =>
      obtain ⟨c, cs, hcs, -⟩ := exists_toDigits_eq_cons (n / 10)
      have hhead := ih (n / 10) (by omega) (by omega) cs
      rw [hcs] at hhead ⊢
      intro h
      rw [List.cons_append] at h
      exact hhead (by rw [(List.cons.inj h).1])

theorem spanWhole_toDigits (n : Nat) (hrest : EndsNumeral rest) :
    spanWhole (Nat.toDigits 10 n ++ rest) = (Nat.toDigits 10 n, rest) := by
  have hspan := spanDigits_append (isDigit_of_mem_toDigits (n := n)) hrest
  obtain rfl | hn := Nat.eq_zero_or_pos n
  · rfl
  · obtain ⟨c, cs, hcs, -⟩ := exists_toDigits_eq_cons n
    have hzero := toDigits_ne_zero_cons hn cs
    rw [hcs] at hspan hzero ⊢
    have hc : c ≠ '0' := by rintro rfl; exact hzero rfl
    rw [← hspan, List.cons_append, spanWhole]
    simp [hc]

theorem spanFraction_of_endsNumeral (hrest : EndsNumeral rest) :
    spanFraction rest = ([], rest) := by
  unfold spanFraction
  split
  · exact absurd rfl (hrest '.' rfl).2.1
  · rfl

theorem spanExponent_of_endsNumeral (hrest : EndsNumeral rest) :
    spanExponent rest = (none, rest) := by
  unfold spanExponent
  split
  · next c cs => rw [if_neg (not_or.2 (hrest c rfl).2.2)]
  · rfl

/-- The text of an integer: a sign if it is negative, and digits. -/
theorem toList_toString (n : Int) :
    (toString n).toList = (if n < 0 then ['-'] else []) ++ Nat.toDigits 10 n.natAbs := by
  rw [Int.toString_eq_repr, Int.repr_eq_if]
  by_cases hn : n < 0
  · have habs : (-n).toNat = n.natAbs := by omega
    rw [if_neg (by omega), if_pos hn, habs, Nat.repr_eq_ofList_toDigits, String.toList_append,
      String.toList_ofList, String.toList_ofList]
  · have habs : n.toNat = n.natAbs := by omega
    rw [if_pos (by omega), if_neg hn, habs, Nat.repr_eq_ofList_toDigits, String.toList_ofList]
    rfl

theorem numeral?_toString {d : Dialect} {n : Int} (hn : d.Admits n) (hrest : EndsNumeral rest) :
    numeral? d.digitLimit ((toString n).toList ++ rest) = some (.int n, rest) := by
  have hwhole := spanWhole_toDigits n.natAbs hrest
  have hread : natOfDigits (Nat.toDigits 10 n.natAbs) = n.natAbs := Nat.ofDigitChars_ten_toDigits
  have hlimit : d.digitLimit.any (· < (Nat.toDigits 10 n.natAbs).length) = false := by
    cases h : d.digitLimit with
    | none => rfl
    | some k => simpa using hn k h
  obtain ⟨c, cs, hcs, -, hc⟩ := exists_toDigits_eq_cons n.natAbs
  rw [toList_toString]
  rw [hcs] at hwhole hread hlimit ⊢
  rw [List.cons_append] at hwhole
  unfold numeral?
  by_cases hneg : n < 0
  · have hvalue : -(n.natAbs : Int) = n := by omega
    simp only [hneg, if_true, List.cons_append, List.nil_append, hwhole,
      spanFraction_of_endsNumeral hrest, spanExponent_of_endsNumeral hrest, hlimit, hread, hvalue,
      List.isEmpty_nil, Option.isNone_none, Bool.and_self, Bool.false_eq_true, if_false]
  · have hvalue : (n.natAbs : Int) = n := by omega
    simp only [hneg, hc, if_true, List.cons_append, List.nil_append, List.cons.injEq, false_and,
      imp_self, implies_true, hwhole, spanFraction_of_endsNumeral hrest,
      spanExponent_of_endsNumeral hrest, hlimit, hread, hvalue, List.isEmpty_nil,
      Option.isNone_none, Bool.and_self, Bool.false_eq_true, if_false]

end Numeral

/-! ## Strings -/

section Unquote

variable {q : Unquoted} {rest : List Char}

theorem unquote?_close : unquote? q ('"' :: rest) = some (q.flush.reverse, rest) := by
  rw [unquote?.eq_def]
  rfl

theorem unquote?_plain {c : Char} (hquote : c ≠ '"') (hbackslash : c ≠ '\\')
    (hlow : ¬ c.toNat < 0x20) : unquote? q (c :: rest) = unquote? (q.push c) rest := by
  rw [unquote?.eq_def]
  simp only [if_neg hquote, if_neg hbackslash, if_neg hlow]

theorem unquote?_letter {e r : Char} (hu : e ≠ 'u') (he : letterEscape? e = some r) :
    unquote? q ('\\' :: e :: rest) = unquote? (q.push r) rest := by
  rw [unquote?.eq_def]
  simp only [if_neg (show '\\' ≠ '"' by decide), if_true, if_neg hu, he]

theorem unquote?_unit {h₁ h₂ h₃ h₄ : Char} {u : Nat} (hu : codeUnit? h₁ h₂ h₃ h₄ = some u) :
    unquote? q ('\\' :: 'u' :: h₁ :: h₂ :: h₃ :: h₄ :: rest) = unquote? (q.pushUnit u) rest := by
  rw [unquote?.eq_def]
  simp only [if_neg (show '\\' ≠ '"' by decide), if_true, hu]

/-- A unit below U+0020 is written with two digits and is no half of a pair. -/
theorem codeUnit?_control :
    ∀ n < 0x20, codeUnit? '0' '0' (Nat.digitChar (n / 16)) (Nat.digitChar (n % 16)) = some n ∧
      isHighSurrogate n = false ∧ isLowSurrogate n = false := by
  decide

theorem letterEscape?_of_mem :
    ∀ e ∈ letterEscapes, e.1 ≠ 'u' ∧ letterEscape? e.1 = some e.2 := by
  decide

/-- The written form of a character is read as this character. -/
theorem unquote?_escapeChar (c : Char) (done : List Char) :
    unquote? ⟨done, none⟩ (escapeChar c ++ rest) = unquote? ⟨c :: done, none⟩ rest := by
  unfold escapeChar
  split
  · next hc => subst hc; exact unquote?_letter (by decide) rfl
  · next hquote =>
    split
    · next hc => subst hc; exact unquote?_letter (by decide) rfl
    · next hbackslash =>
      split
      · next e he =>
        obtain ⟨hu, hletter⟩ := letterEscape?_of_mem e (List.mem_of_find?_eq_some he)
        have hc : e.2 = c := by simpa using List.find?_some he
        subst hc
        exact unquote?_letter hu hletter
      · split
        · -- a control without a letter of its own comes back as one code unit, which ends no pair
          next hlow =>
          obtain ⟨hunit, hhigh, hnotLow⟩ := codeUnit?_control c.toNat hlow
          have hchar : charOfCodePoint c.toNat = c := by
            simp [charOfCodePoint, hhigh, hnotLow, Char.ofNat_toNat]
          refine (unquote?_unit hunit).trans ?_
          simp only [Unquoted.pushUnit, hhigh, hnotLow, Unquoted.push, Unquoted.flush, hchar,
            Bool.false_eq_true, if_false]
          rfl
        · next hlow => exact unquote?_plain hquote hbackslash hlow

/-- Up to the closing quote a string is read as it was written. -/
theorem unquote?_escaped (cs done : List Char) :
    unquote? ⟨done, none⟩ (cs.flatMap escapeChar ++ '"' :: rest) =
      some (done.reverse ++ cs, rest) := by
  induction cs generalizing done with
  | nil => rw [List.append_nil]; exact unquote?_close
  | cons c cs ih =>
    rw [List.flatMap_cons, List.append_assoc, unquote?_escapeChar, ih, List.reverse_cons,
      List.append_assoc, List.singleton_append]

end Unquote

/-! ## Scalars -/

section Scalar

variable {d : Dialect} {rest : List Char}

theorem toList_quote (s : String) :
    (quote s).toList = '"' :: (s.toList.flatMap escapeChar ++ ['"']) := by
  rw [quote, String.toList_ofList, List.cons_append]

theorem scalar?_quote (s : String) :
    scalar? d ((quote s).toList ++ rest) = some (.string s, rest) := by
  rw [toList_quote, List.cons_append, List.append_assoc, List.singleton_append, scalar?,
    if_pos rfl, unquote?_escaped, Option.map_some, List.reverse_nil, List.nil_append,
    String.ofList_toList]

/-- Whether a text begins with a digit, behind a sign or not. -/
def beginsNumeral : List Char → Bool
  | '-' :: c :: _ => c.isDigit
  | c :: _ => c.isDigit
  | [] => false

/-- Every word is told from a numeral by its first two characters, `-Infinity` by its second. -/
theorem beginsNumeral_word {w : List Char × Value} (hw : w ∈ words d) :
    beginsNumeral (w.1 ++ rest) = false := by
  have hwords : ∀ w ∈ words { d with constants := true }, beginsNumeral (w.1 ++ rest) = false := by
    simp only [words, if_true, List.cons_append, List.nil_append, List.forall_mem_cons,
      List.not_mem_nil, false_implies, implies_true, and_true]
    exact ⟨rfl, rfl, rfl, rfl, rfl, rfl⟩
  refine hwords w ?_
  unfold words at hw ⊢
  split at hw
  · exact hw
  · exact List.mem_append_left _ (by simpa using hw)

theorem word?_eq_none {cs : List Char} (h : beginsNumeral cs = true) : word? d cs = none := by
  refine List.findSome?_eq_none_iff.2 fun w hw => Option.map_eq_none_iff.2 ?_
  cases hafter : afterWord? w.1 cs with
  | none => rfl
  | some t =>
    rw [← append_eq_of_afterWord? hafter, beginsNumeral_word hw] at h
    cases h

theorem beginsNumeral_toString (n : Int) : beginsNumeral ((toString n).toList ++ rest) = true := by
  obtain ⟨c, cs, hcs, hdigit, hsign⟩ := exists_toDigits_eq_cons n.natAbs
  rw [toList_toString, hcs]
  split
  · exact hdigit
  · simp [beginsNumeral, hdigit, hsign]

theorem scalar?_toString {n : Int} (hn : d.Admits n) (hrest : EndsNumeral rest) :
    scalar? d ((toString n).toList ++ rest) = some (.int n, rest) := by
  have hnumeral := numeral?_toString hn hrest
  have hbegins : beginsNumeral ((toString n).toList ++ rest) = true := beginsNumeral_toString n
  cases htext : (toString n).toList ++ rest with
  | nil => rw [htext] at hbegins; cases hbegins
  | cons c cs =>
    rw [htext] at hnumeral hbegins
    have hquote : c ≠ '"' := by rintro rfl; cases hbegins
    rw [scalar?, if_neg hquote, word?_eq_none hbegins]
    exact hnumeral

theorem scalar?_null : scalar? d ("null".toList ++ rest) = some (.null, rest) := rfl

theorem scalar?_true : scalar? d ("true".toList ++ rest) = some (.bool true, rest) := rfl

theorem scalar?_false : scalar? d ("false".toList ++ rest) = some (.bool false, rest) := rfl

end Scalar

/-! ## Texts of several tokens -/

/-- A text is cut into tokens, whatever follows that no numeral in it goes on with. -/
def CutInto (d : Dialect) (cs : List Char) (ts : List Token) : Prop :=
  ∀ rest, EndsNumeral rest → tokens? d (cs ++ rest) = (tokens? d rest).map (ts ++ ·)

section CutInto

variable {d : Dialect} {c : Char} {t : Token} {cs cs' : List Char} {ts ts' : List Token}

theorem tokens?_of_blank (hc : isBlank c = true) : tokens? d (c :: cs) = tokens? d cs := by
  rw [tokens?, if_pos hc]

theorem tokens?_of_punctuation (hblank : isBlank c = false) (hc : punctuation? c = some t) :
    tokens? d (c :: cs) = (tokens? d cs).map (t :: ·) := by
  rw [tokens?, if_neg (by simp [hblank]), hc]

theorem tokens?_of_scalar {v : Value} (hblank : isBlank c = false) (hc : punctuation? c = none)
    (hv : scalar? d (c :: cs) = some (v, cs')) :
    tokens? d (c :: cs) = (tokens? d cs').map (.scalar v :: ·) := by
  rw [tokens?, if_neg (by simp [hblank])]
  simp only [hc]
  split
  · next h => rw [hv] at h; cases h; rfl
  · next h => rw [hv] at h; cases h

theorem CutInto.append (h : CutInto d cs ts) (h' : CutInto d cs' ts') (hends : EndsNumeral cs') :
    CutInto d (cs ++ cs') (ts ++ ts') := by
  intro rest hrest
  rw [List.append_assoc, h _ (hends.append hrest), h' rest hrest, Option.map_map]
  congr 1
  funext us
  rw [Function.comp_apply, List.append_assoc]

theorem CutInto.blank (hc : isBlank c = true) (h : CutInto d cs ts) : CutInto d (c :: cs) ts := by
  intro rest hrest
  rw [List.cons_append, tokens?_of_blank hc, h rest hrest]

theorem CutInto.punctuation (hblank : isBlank c = false) (hc : punctuation? c = some t)
    (h : CutInto d cs ts) : CutInto d (c :: cs) (t :: ts) := by
  intro rest hrest
  rw [List.cons_append, tokens?_of_punctuation hblank hc, h rest hrest, Option.map_map]
  rfl

theorem cutInto_nil : CutInto d [] [] := by
  intro rest _
  exact Option.map_id'.symm

/-- A digit begins nothing but a numeral. -/
theorem isBlank_of_isDigit (hc : c.isDigit = true) : isBlank c = false ∧ punctuation? c = none := by
  have hmarks : [' ', '\t', '\n', '\r', '[', ']', '{', '}', ',', ':'].all (!·.isDigit) = true := by
    decide
  have hne : ∀ l ∈ [' ', '\t', '\n', '\r', '[', ']', '{', '}', ',', ':'], c ≠ l := by
    rintro l hl rfl
    have hmark := List.all_eq_true.1 hmarks c hl
    rw [hc] at hmark
    cases hmark
  simp only [List.forall_mem_cons] at hne
  simp [isBlank, punctuation?, hne]

theorem cutInto_scalar {v : Value} (hblank : isBlank c = false) (hc : punctuation? c = none)
    (hv : ∀ rest, EndsNumeral rest → scalar? d (c :: cs ++ rest) = some (v, rest)) :
    CutInto d (c :: cs) [.scalar v] := by
  intro rest hrest
  exact tokens?_of_scalar hblank hc (hv rest hrest)

theorem cutInto_quote (s : String) : CutInto d (quote s).toList [.scalar (.string s)] := by
  have hv : ∀ rest, EndsNumeral rest →
      scalar? d ((quote s).toList ++ rest) = some (.string s, rest) := fun _ _ => scalar?_quote s
  rw [toList_quote] at hv ⊢
  exact cutInto_scalar rfl rfl hv

theorem cutInto_toString {n : Int} (hn : d.Admits n) :
    CutInto d (toString n).toList [.scalar (.int n)] := by
  have hv : ∀ rest, EndsNumeral rest →
      scalar? d ((toString n).toList ++ rest) = some (.int n, rest) := fun _ => scalar?_toString hn
  obtain ⟨c, cs, hcs, hdigit, -⟩ := exists_toDigits_eq_cons n.natAbs
  obtain ⟨hblank, hc⟩ := isBlank_of_isDigit hdigit
  rw [toList_toString, hcs] at hv ⊢
  split at hv
  · next hneg => rw [if_pos hneg]; exact cutInto_scalar rfl rfl hv
  · next hneg => rw [if_neg hneg]; exact cutInto_scalar hblank hc hv

/-- Texts with a comma and a blank between them and a closing bracket behind them. -/
theorem cutInto_separated {css : List (List Char)} {tss : List (List Token)}
    (h : List.Forall₂ (CutInto d) css tss) (hblank : isBlank c = false)
    (hc : punctuation? c = some t) (hends : EndsNumeral [c]) :
    CutInto d ([',', ' '].intercalate css ++ [c]) ([.comma].intercalate tss ++ [t]) := by
  induction h with
  | nil => exact cutInto_nil.punctuation hblank hc
  | @cons cs ts css tss hcs hcss ih =>
    cases hcss with
    | nil =>
      rw [List.intercalate_singleton, List.intercalate_singleton]
      exact hcs.append (cutInto_nil.punctuation hblank hc) hends
    | cons =>
      rw [List.intercalate_cons_cons, List.intercalate_cons_cons, List.append_assoc,
        List.append_assoc, List.append_assoc, List.append_assoc]
      exact hcs.append ((ih.blank rfl).punctuation rfl rfl) (endsNumeral_cons (by decide))

end CutInto

end JsonExpect.Json
