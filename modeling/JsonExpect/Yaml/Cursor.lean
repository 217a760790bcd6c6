/-!
# Characters of a document and places in it

Which characters a document may hold, which of them end a line or a word, and the marks that stand
around documents. A `Cursor` is a place in a text: what is left to be read, and the `Position` of
its first character by index, line and column.
-/

namespace JsonExpect.Yaml

/-- The characters that a text may hold. -/
def isAllowed (c : Char) : Bool :=
  let n := c.toNat
  n = 0x09 || n = 0x0A || n = 0x0D || (0x20 ≤ n && n ≤ 0x7E) || n = 0x85 ||
    (0xA0 ≤ n && n ≤ 0xD7FF) || (0xE000 ≤ n && n ≤ 0xFFFD) || 0x10000 ≤ n

/-- The text with every line that ends in a carriage return, alone or before a line feed, ended by a
line feed. -/
def uniformBreaks : List Char → List Char
  | [] => []
  | '\r' :: '\n' :: cs => '\n' :: uniformBreaks cs
  | c :: cs => (if c = '\r' then '\n' else c) :: uniformBreaks cs

/-- A character that ends a line. -/
def isBreak (c : Char) : Bool := c = '\n' || c = '\x85' || c = '\u2028' || c = '\u2029'

/-- The line break that counts as part of a scalar: the two that mean no more than the end of a line
are line feeds. -/
def breakChar (c : Char) : Char := if c = '\x85' then '\n' else c

/-- A blank or the end of a line. -/
def isSpace (c : Char) : Bool := c = ' ' || c = '\t' || isBreak c

/-- Whether a word ends here: at a blank, at the end of a line or at the end of the text. -/
def endsWord : List Char → Bool
  | [] => true
  | c :: _ => isSpace c

/-- Whether a word ends here without a tab. -/
def endsPart : List Char → Bool
  | [] => true
  | c :: _ => c = ' ' || isBreak c

/-- Whether a line ends here. -/
def endsLine : List Char → Bool
  | [] => true
  | c :: _ => isBreak c

/-- Whether a text at the beginning of a line is one of the marks around documents. -/
def isMark : List Char → Bool
  | '-' :: '-' :: '-' :: cs => endsWord cs
  | '.' :: '.' :: '.' :: cs => endsWord cs
  | _ => false

/-- How far a character is into a text. -/
structure Position where
  index : Nat := 0
  line : Nat := 0
  column : Nat := 0
deriving DecidableEq, Repr, Inhabited

/-- The position behind a character. The mark of the byte order has no width. -/
def Position.after (p : Position) (c : Char) : Position where
  index := p.index + 1
  line := if isBreak c then p.line + 1 else p.line
  column := if isBreak c then 0 else if c = '\ufeff' then p.column else p.column + 1

/-- A place in a text. -/
structure Cursor where
  rest : List Char
  position : Position := {}
deriving Repr, Inhabited

namespace Cursor

def column (k : Cursor) : Nat := k.position.column

/-- The place so many characters further on. -/
def drop (n : Nat) (k : Cursor) : Cursor :=
  ⟨k.rest.drop n, (k.rest.take n).foldl .after k.position⟩

/-- The characters at the front that satisfy a test, and the place behind them. -/
def span (test : Char → Bool) (k : Cursor) : List Char × Cursor :=
  let taken := k.rest.takeWhile test
  (taken, ⟨k.rest.dropWhile test, taken.foldl .after k.position⟩)

/-- The place behind the characters at the front that satisfy a test. -/
def skip (test : Char → Bool) (k : Cursor) : Cursor := (k.span test).2

/-- The place at the end of the line. -/
def skipComment (k : Cursor) : Cursor :=
  if k.rest.head? = some '#' then k.skip (!isBreak ·) else k

/-- The place behind a line break, and that break, if a line ends here. -/
def takeBreak (k : Cursor) : Option Char × Cursor :=
  match k.rest with
  | [] => (none, k)
  | c :: _ => if isBreak c then (some (breakChar c), k.drop 1) else (none, k)

/-- The place behind the end of the line, if there is nothing but spaces and a comment before it. -/
def endLine? (k : Cursor) : Option Cursor :=
  let k := (k.skip (· = ' ')).skipComment
  if endsLine k.rest then some k.takeBreak.2 else none

end Cursor

end JsonExpect.Yaml
