import JsonExpect.Json.Numeral
import JsonExpect.Json.Quoted

/-!
# Tokens of JSON text

A text is cut into brackets, separators and scalars; blanks between them are dropped. Every token
takes at least one character, which is why `tokens?` ends.
-/

namespace JsonExpect.Json

/-- What a text may hold beyond the standard, and how long an integer may be. -/
structure Dialect where
  /-- Whether `NaN`, `Infinity` and `-Infinity` are read as doubles. -/
  constants : Bool := false
  /-- The most digits of an integer. -/
  digitLimit : Option Nat := none

/-- A word of JSON text. Scalars are read as their values. -/
inductive Token where
  | openArray
  | closeArray
  | openObject
  | closeObject
  | comma
  | colon
  | scalar (v : Value)

/-- Blanks between tokens: space, tab, line feed and carriage return. -/
def isBlank (c : Char) : Bool :=
  c = ' ' || c = '\t' || c = '\n' || c = '\r'

/-- The token that a punctuation character is. -/
def punctuation? (c : Char) : Option Token :=
  if c = '[' then some .openArray
  else if c = ']' then some .closeArray
  else if c = '{' then some .openObject
  else if c = '}' then some .closeObject
  else if c = ',' then some .comma
  else if c = ':' then some .colon
  else none

/-- The scalars that are written as words. -/
def words (d : Dialect) : List (List Char × Value) :=
  [("null".toList, .null), ("true".toList, .bool true), ("false".toList, .bool false)] ++
    if d.constants then
      [("NaN".toList, .float .nan), ("Infinity".toList, .float (.infinity false)),
        ("-Infinity".toList, .float (.infinity true))]
    else []

/-- What follows a word, if a text begins with it. -/
def afterWord? : List Char → List Char → Option (List Char)
  | [], cs => some cs
  | _ :: _, [] => none
  | w :: ws, c :: cs => if c = w then afterWord? ws cs else none

/-- The word at the front of a text and what follows it. -/
def word? (d : Dialect) (cs : List Char) : Option (Value × List Char) :=
  (words d).findSome? fun w => (afterWord? w.1 cs).map fun rest => (w.2, rest)

/-- The scalar at the front of a text and what follows it. -/
def scalar? (d : Dialect) : List Char → Option (Value × List Char)
  | [] => none
  | c :: cs =>
    if c = '"' then (unquote? ⟨[], none⟩ cs).map fun q => (.string (String.ofList q.1), q.2)
    else match word? d (c :: cs) with
      | some found => some found
      | none => numeral? d.digitLimit (c :: cs)

theorem append_eq_of_afterWord? {w cs t : List Char} (h : afterWord? w cs = some t) :
    w ++ t = cs := by
  fun_induction afterWord? w cs with
  | case1 => simpa using h.symm
  | case2 => simp at h
  | case3 w ws cs ih => rw [List.cons_append, ih h]
  | case4 => simp at h

theorem length_lt_of_word? {d : Dialect} {cs rest : List Char} {v : Value}
    (h : word? d cs = some (v, rest)) : rest.length < cs.length := by
  obtain ⟨w, hw, h⟩ := List.exists_of_findSome?_eq_some h
  obtain ⟨t, ht, h⟩ := Option.map_eq_some_iff.1 h
  simp only [Prod.mk.injEq] at h
  rw [← append_eq_of_afterWord? ht, ← h.2, List.length_append]
  have hpos : ∀ w ∈ words d, 0 < w.1.length := by
    unfold words; split <;> simp
  have := hpos w hw
  omega

theorem length_lt_of_scalar? {d : Dialect} {cs rest : List Char} {v : Value}
    (h : scalar? d cs = some (v, rest)) : rest.length < cs.length := by
  unfold scalar? at h
  split at h
  · exact absurd h (by simp)
  · next c cs =>
    split at h
    · obtain ⟨q, hq, h⟩ := Option.map_eq_some_iff.1 h
      have : q.2.length < cs.length := length_lt_of_unquote? hq
      simp only [Prod.mk.injEq] at h
      rw [← h.2, List.length_cons]; omega
    · split at h
      · next hw => cases h; exact length_lt_of_word? hw
      · exact length_lt_of_numeral? h

/-- The tokens of a text, if it can be cut into tokens. -/
def tokens? (d : Dialect) : List Char → Option (List Token)
  | [] => some []
  | c :: cs =>
    if isBlank c then tokens? d cs
    else match punctuation? c with
      | some t => (tokens? d cs).map (t :: ·)
      | none =>
        match _h : scalar? d (c :: cs) with
        | some (v, rest) => (tokens? d rest).map (.scalar v :: ·)
        | none => none
termination_by cs => cs.length
decreasing_by
  · simp
  · simp
  · exact length_lt_of_scalar? (by assumption)

end JsonExpect.Json
