import Mathlib.Algebra.Ring.Parity
import Mathlib.Data.List.Infix
import JsonExpect.Path.Parser
import JsonExpect.Path.Printer

/-!
# Escaping a class of characters and undoing it

A key is written with a backslash before each of its dots and brackets, but not before its
backslashes. Undoing the marks one after the other takes the class of escaped characters apart:
`unescape_escapeBy` removes one mark from the class, whatever backslashes the name itself has.
`backslashes` counts those at the end of a text, which is all that the search for brackets looks at.
-/

namespace JsonExpect

open JsonExpect.Path

/-! ## Escaping -/

/-- A backslash before every character of a class. -/
def escapeBy (special : Char → Bool) (text : List Char) : List Char :=
  text.flatMap fun c => if special c then ['\\', c] else [c]

/-- The characters that the written form of a key escapes. -/
def isMark (c : Char) : Bool := c = '.' ∨ c = '[' ∨ c = ']'

def isBracket (c : Char) : Bool := c = '[' ∨ c = ']'

theorem escapeMarks_eq (text : List Char) : escapeMarks text = escapeBy isMark text := by
  simp [escapeMarks, escapeBy, isMark]

section EscapeBy

variable {special : Char → Bool} {text : List Char} {c : Char}

@[simp] theorem escapeBy_nil : escapeBy special [] = [] := rfl

theorem escapeBy_cons_of_special (h : special c = true) :
    escapeBy special (c :: text) = '\\' :: c :: escapeBy special text := by
  simp [escapeBy, h]

theorem escapeBy_cons_of_plain (h : special c = false) :
    escapeBy special (c :: text) = c :: escapeBy special text := by
  simp [escapeBy, h]

@[simp] theorem escapeBy_append (text' : List Char) :
    escapeBy special (text ++ text') = escapeBy special text ++ escapeBy special text' := by
  simp [escapeBy]

@[simp] theorem escapeBy_eq_nil : escapeBy special text = [] ↔ text = [] := by
  cases text with
  | nil => simp
  | cons c text => simp only [escapeBy, List.flatMap_cons]; split <;> simp

theorem escapeBy_of_plain (h : ∀ c, special c = false) : escapeBy special text = text := by
  simp [escapeBy, h]

theorem getLast?_escapeBy : (escapeBy special text).getLast? = text.getLast? := by
  rcases List.eq_nil_or_concat text with rfl | ⟨text, c, rfl⟩
  · rfl
  · rw [List.concat_eq_append, escapeBy_append, List.getLast?_concat]
    rcases Bool.eq_false_or_eq_true (special c) with hc | hc
    · rw [escapeBy_cons_of_special hc, escapeBy_nil, List.append_cons, List.getLast?_concat]
    · rw [escapeBy_cons_of_plain hc, escapeBy_nil, List.getLast?_concat]

/-- An escaped text does not start with a character of the class. -/
theorem head?_escapeBy_append {rest : List Char} (hc : special c = true)
    (hb : special '\\' = false) (hrest : rest.head? ≠ some c) :
    (escapeBy special text ++ rest).head? ≠ some c := by
  cases text with
  | nil => exact hrest
  | cons d text =>
    rcases Bool.eq_false_or_eq_true (special d) with hd | hd
    · rw [escapeBy_cons_of_special hd]
      rintro h
      obtain rfl : '\\' = c := Option.some.inj h
      rw [hb] at hc
      exact Bool.noConfusion hc
    · rw [escapeBy_cons_of_plain hd]
      rintro h
      obtain rfl : d = c := Option.some.inj h
      rw [hd] at hc
      exact Bool.noConfusion hc

end EscapeBy

/-! ## Undoing a mark -/

section Unescape

variable {mark c : Char} {text : List Char}

theorem unescape_cons_of_ne (h : c ≠ '\\') :
    unescape mark (c :: text) = c :: unescape mark text := by
  cases text <;> simp [unescape, h]

theorem unescape_backslash_mark :
    unescape mark ('\\' :: mark :: text) = mark :: unescape mark text := by
  simp [unescape]

theorem unescape_backslash_of_head_ne (h : text.head? ≠ some mark) :
    unescape mark ('\\' :: text) = '\\' :: unescape mark text := by
  cases text with
  | nil => rfl
  | cons d text =>
    have hd : d ≠ mark := fun h' => h (congrArg some h')
    simp [unescape, hd]

theorem length_unescape_le (mark : Char) (text : List Char) :
    (unescape mark text).length ≤ text.length := by
  fun_induction unescape mark text with
  | case1 => simp
  | case2 => simp
  | case3 c d rest _ ih => simp only [List.length_cons]; omega
  | case4 c d rest _ ih => simpa using ih

/-- Undoing a mark changes a text exactly if the mark follows a backslash in it. -/
theorem unescape_eq_self_iff (mark : Char) (text : List Char) :
    unescape mark text = text ↔ ¬ ['\\', mark] <:+: text := by
  fun_induction unescape mark text with
  | case1 => simp
  | case2 c => simp [List.infix_cons_iff, List.prefix_cons_iff]
  | case3 c d rest h ih =>
    obtain ⟨rfl, rfl⟩ := h
    have hlen := length_unescape_le d rest
    constructor
    · intro h
      have := congrArg List.length h
      simp only [List.length_cons] at this
      omega
    · exact fun h => absurd ⟨[], rest, rfl⟩ h
  | case4 c d rest h ih =>
    have hpre : ¬ ['\\', mark] <+: c :: d :: rest := by
      rintro ⟨_, ht⟩
      simp only [List.cons_append, List.nil_append, List.cons.injEq] at ht
      exact h ⟨ht.1.symm, ht.2.1.symm⟩
    have hcons : ['\\', mark] <:+: c :: d :: rest ↔ ['\\', mark] <:+: d :: rest :=
      List.infix_cons_iff.trans (or_iff_right hpre)
    rw [List.cons.injEq, ih, hcons]
    exact and_iff_right rfl

theorem unescape_of_not_mem (h : '\\' ∉ text) : unescape mark text = text :=
  (unescape_eq_self_iff mark text).2 fun hin => h (hin.subset List.mem_cons_self)

/-- Undoing a mark of an escaped class leaves the rest of the class escaped. -/
theorem unescape_escapeBy (special left : Char → Bool) (text : List Char) {rest : List Char}
    (hmark : special mark = true) (hb : special '\\' = false)
    (hleft : ∀ c, left c = (special c && c != mark)) (hrest : rest.head? ≠ some mark) :
    unescape mark (escapeBy special text ++ rest) = escapeBy left text ++ unescape mark rest := by
  induction text with
  | nil => rfl
  | cons c text ih =>
    rcases Bool.eq_false_or_eq_true (special c) with hc | hc
    · have hne : c ≠ '\\' := by
        rintro rfl
        rw [hb] at hc
        exact Bool.noConfusion hc
      rw [escapeBy_cons_of_special hc]
      by_cases hcm : c = mark
      · subst hcm
        have hplain : left c = false := by simp [hleft]
        rw [escapeBy_cons_of_plain hplain, List.cons_append, List.cons_append,
          unescape_backslash_mark, ih, List.cons_append]
      · have hspecial : left c = true := by simp [hleft, hc, hcm]
        have hhead : (c :: (escapeBy special text ++ rest)).head? ≠ some mark := fun h =>
          hcm (Option.some.inj h)
        rw [escapeBy_cons_of_special hspecial, List.cons_append, List.cons_append,
          unescape_backslash_of_head_ne hhead, unescape_cons_of_ne hne, ih, List.cons_append,
          List.cons_append]
    · have hplain : left c = false := by simp [hleft, hc]
      rw [escapeBy_cons_of_plain hc, escapeBy_cons_of_plain hplain, List.cons_append,
        List.cons_append, ← ih]
      by_cases hcb : c = '\\'
      · subst hcb
        exact unescape_backslash_of_head_ne (head?_escapeBy_append hmark hb hrest)
      · exact unescape_cons_of_ne hcb

/-- With its dots undone, the written form of a key has its brackets escaped. -/
theorem unescape_dot_escapeMarks (name : List Char) {rest : List Char}
    (hrest : rest.head? ≠ some '.') :
    unescape '.' (escapeMarks name ++ rest) = escapeBy isBracket name ++ unescape '.' rest := by
  rw [escapeMarks_eq]
  refine unescape_escapeBy isMark isBracket name (by decide) (by decide) (fun c => ?_) hrest
  by_cases hc : c = '.'
  · subst hc
    decide
  · simp [isMark, isBracket, hc]

theorem unescape_brackets (name : List Char) :
    unescape ']' (unescape '[' (escapeBy isBracket name)) = name := by
  have hleft : ∀ c, (c == ']') = (isBracket c && c != '[') := by
    intro c
    by_cases hc : c = '['
    · subst hc
      decide
    · by_cases hc' : c = ']' <;> simp [isBracket, hc, hc']
  have hopen : unescape '[' (escapeBy isBracket name ++ []) = escapeBy (· == ']') name ++ [] :=
    unescape_escapeBy isBracket _ name (by decide) (by decide) hleft (by simp)
  have hclose : unescape ']' (escapeBy (· == ']') name ++ []) =
      escapeBy (fun _ => false) name ++ [] :=
    unescape_escapeBy _ _ name (by decide) (by decide) (fun c => by simp) (by simp)
  rw [List.append_nil, List.append_nil] at hopen hclose
  rw [hopen, hclose]
  exact escapeBy_of_plain fun _ => rfl

end Unescape

/-- The component of a key that is read with its brackets escaped. -/
theorem keyComponent_escapeBy (name : List Char) :
    keyComponent (escapeBy isBracket name) =
      if name = ['*'] then .anyKey else .key (String.ofList (unescape '*' name)) := by
  rw [keyComponent, unescape_brackets]

/-! ## Backslashes at the end of a text -/

/-- The number of backslashes at the end of a text. -/
def backslashes (text : List Char) : Nat := (text.reverse.takeWhile (· = '\\')).length

@[simp] theorem backslashes_nil : backslashes [] = 0 := rfl

@[simp] theorem backslashes_concat_backslash (text : List Char) :
    backslashes (text ++ ['\\']) = backslashes text + 1 := by
  simp [backslashes]

theorem backslashes_concat_of_ne {c : Char} (text : List Char) (h : c ≠ '\\') :
    backslashes (text ++ [c]) = 0 := by
  simp [backslashes, h]

theorem backslashes_eq_zero {text : List Char} (h : text.getLast? ≠ some '\\') :
    backslashes text = 0 := by
  rcases List.eq_nil_or_concat text with rfl | ⟨text, c, rfl⟩
  · rfl
  · rw [List.concat_eq_append] at h ⊢
    exact backslashes_concat_of_ne text fun hc => h (by simp [hc])

/-- Escaping adds no backslash at the end. -/
theorem backslashes_escapeBy {special : Char → Bool} (hb : special '\\' = false)
    (text : List Char) : backslashes (escapeBy special text) = backslashes text := by
  induction text using List.reverseRecOn with
  | nil => rfl
  | append_singleton text c ih =>
    rw [escapeBy_append]
    by_cases hc : c = '\\'
    · subst hc
      rw [escapeBy_cons_of_plain hb, escapeBy_nil, backslashes_concat_backslash,
        backslashes_concat_backslash, ih]
    · rw [backslashes_concat_of_ne text hc]
      rcases Bool.eq_false_or_eq_true (special c) with hs | hs
      · rw [escapeBy_cons_of_special hs, escapeBy_nil, List.append_cons,
          backslashes_concat_of_ne _ hc]
      · rw [escapeBy_cons_of_plain hs, escapeBy_nil, backslashes_concat_of_ne _ hc]

theorem isEscaped_reverse_iff (text : List Char) :
    isEscaped text.reverse = true ↔ Odd (backslashes text) := by
  simp [isEscaped, backslashes, Nat.odd_iff]

end JsonExpect
