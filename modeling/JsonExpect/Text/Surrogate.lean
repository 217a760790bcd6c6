/-!
# Code points and halves of surrogate pairs

A text may write one half of a surrogate pair by its number, without the other half. A half is a
code point but no character, so a string holds a stand-in for it: a character for private use, so
many places further up. `codePoint` gives the number back, `isWhole` tells whether a text has a half
in it, and `textLE` orders texts by their code points.
-/

namespace JsonExpect

/-- A code point that opens a surrogate pair. -/
def isHighSurrogate (n : Nat) : Bool := 0xD800 ≤ n && n < 0xDC00

/-- A code point that closes a surrogate pair. -/
def isLowSurrogate (n : Nat) : Bool := 0xDC00 ≤ n && n < 0xE000

/-- The character of a surrogate pair. -/
def pairChar (high low : Nat) : Char :=
  Char.ofNat (0x10000 + (high - 0xD800) * 0x400 + (low - 0xDC00))

/-- How far a stand-in is from what it stands for. -/
def standInOffset : Nat := 0x100000

/-- The character of a code point, or the one that stands in for it. -/
def charOfCodePoint (n : Nat) : Char :=
  Char.ofNat (if isHighSurrogate n || isLowSurrogate n then standInOffset + n else n)

/-- The code point of a character, or the one that it stands in for. -/
def codePoint (c : Char) : Nat :=
  let n := c.toNat - standInOffset
  if standInOffset ≤ c.toNat && (isHighSurrogate n || isLowSurrogate n) then n else c.toNat

/-- Whether no character of a text stands in for half of a pair. Any other text has no bytes. -/
def isWhole (text : String) : Bool := text.toList.all fun c => codePoint c = c.toNat

/-- Whether a text comes first by the code points of its characters, or is the same. -/
def textLE : List Char → List Char → Bool
  | [], _ => true
  | _ :: _, [] => false
  | c :: cs, d :: ds => codePoint c < codePoint d || (c = d && textLE cs ds)

end JsonExpect
