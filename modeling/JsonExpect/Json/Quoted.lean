import JsonExpect.Text.Surrogate

/-!
# Quoted strings of JSON text

`Json.quote` writes a string between quotes: the quote, the backslash and the characters below
U+0020 are escaped, all else stands for itself. `Json.unquote?` reads the characters after an
opening quote up to the closing one, and accepts every escape of the format; a character below
U+0020 must be escaped. Two halves of a surrogate pair in a row make one character, and a half alone
is held by its stand-in.
-/

namespace JsonExpect.Json

/-- The two-character escapes that are written by their letter: the letter and what it stands for.
-/
def letterEscapes : List (Char × Char) :=
  [('n', '\n'), ('r', '\r'), ('t', '\t'), ('b', '\x08'), ('f', '\x0c')]

/-- The written form of one character. -/
def escapeChar (c : Char) : List Char :=
  if c = '"' then ['\\', '"']
  else if c = '\\' then ['\\', '\\']
  else match letterEscapes.find? (·.2 = c) with
    | some e => ['\\', e.1]
    | none =>
      if c.toNat < 0x20 then
        ['\\', 'u', '0', '0', Nat.digitChar (c.toNat / 16), Nat.digitChar (c.toNat % 16)]
      else [c]

/-- The written form of a string, quotes included. -/
def quote (s : String) : String :=
  String.ofList ('"' :: s.toList.flatMap escapeChar ++ ['"'])

/-- An escape of a unit of sixteen bits. -/
def unitEscape (u : Nat) : List Char :=
  ['\\', 'u', Nat.digitChar (u / 4096), Nat.digitChar (u / 256 % 16), Nat.digitChar (u / 16 % 16),
    Nat.digitChar (u % 16)]

/-- The written form of a character in a text that is to be ASCII alone: beyond U+FFFF a surrogate
pair. -/
def asciiChar (c : Char) : List Char :=
  let n := codePoint c
  if n < 0x80 then [c]
  else if n < 0x10000 then unitEscape n
  else unitEscape (0xD800 + (n - 0x10000) / 0x400) ++ unitEscape (0xDC00 + (n - 0x10000) % 0x400)

/-- A JSON text with every character beyond ASCII escaped. Such characters stand in strings only. -/
def asciiText (text : String) : String := String.ofList (text.toList.flatMap asciiChar)

/-- The value of a hexadecimal digit. -/
def hexValue? (c : Char) : Option Nat :=
  if '0' ≤ c ∧ c ≤ '9' then some (c.toNat - '0'.toNat)
  else if 'a' ≤ c ∧ c ≤ 'f' then some (c.toNat - 'a'.toNat + 10)
  else if 'A' ≤ c ∧ c ≤ 'F' then some (c.toNat - 'A'.toNat + 10)
  else none

/-- The number that four hexadecimal digits write. -/
def codeUnit? (a b c d : Char) : Option Nat :=
  match hexValue? a, hexValue? b, hexValue? c, hexValue? d with
  | some a, some b, some c, some d => some (((a * 16 + b) * 16 + c) * 16 + d)
  | _, _, _, _ => none

/-- What has been read of a string: its characters, last first, and the first half of a surrogate
pair if the text has just written one. -/
structure Unquoted where
  done : List Char
  high : Option Nat := none

namespace Unquoted

/-- Settles a first half that has no second one. -/
def flush (q : Unquoted) : List Char :=
  match q.high with
  | some h => charOfCodePoint h :: q.done
  | none => q.done

def push (q : Unquoted) (c : Char) : Unquoted := ⟨c :: q.flush, none⟩

/-- Adds a unit, which may be a half of a surrogate pair. -/
def pushUnit (q : Unquoted) (u : Nat) : Unquoted :=
  if isHighSurrogate u then ⟨q.flush, some u⟩
  else
    match isLowSurrogate u, q.high with
    | true, some h => ⟨pairChar h u :: q.done, none⟩
    | _, _ => q.push (charOfCodePoint u)

end Unquoted

/-- The character of a two-character escape. -/
def letterEscape? (c : Char) : Option Char :=
  if c = '"' ∨ c = '\\' ∨ c = '/' then some c
  else (letterEscapes.find? (·.1 = c)).map (·.2)

/-- Reads on to the closing quote: the characters of the string and the text after that quote. -/
def unquote? (q : Unquoted) : List Char → Option (List Char × List Char)
  | [] => none
  | c :: rest =>
    if c = '"' then some (q.flush.reverse, rest)
    else if c = '\\' then
      match rest with
      | [] => none
      | e :: rest =>
        if e = 'u' then
          match rest with
          | h₁ :: h₂ :: h₃ :: h₄ :: rest =>
            match codeUnit? h₁ h₂ h₃ h₄ with
            | some u => unquote? (q.pushUnit u) rest
            | none => none
          | _ => none
        else
          match letterEscape? e with
          | some r => unquote? (q.push r) rest
          | none => none
    else if c.toNat < 0x20 then none
    else unquote? (q.push c) rest

theorem length_lt_of_unquote? {q : Unquoted} {cs s rest : List Char}
    (h : unquote? q cs = some (s, rest)) : rest.length < cs.length := by
  fun_induction unquote? q cs <;> simp_all <;> omega

end JsonExpect.Json
