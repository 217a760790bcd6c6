import JsonExpect.Yaml.Folded

/-!
# Plain scalars

A scalar without quotes ends at a colon that is followed by a blank, before a comment, at a tab, and
between brackets also at the brackets, commas and question marks. It goes on over the lines below as
long as these are indented deep enough.
-/

namespace JsonExpect.Yaml

/-- Brackets and commas. -/
def isFlowMark (c : Char) : Bool :=
  c = ',' || c = '[' || c = ']' || c = '{' || c = '}'

/-- Whether a colon followed by `cs` separates a name from its value. -/
def separates (inFlow : Bool) (cs : List Char) : Bool :=
  endsWord cs || (inFlow && cs.head?.any isFlowMark)

/-- Characters that no plain scalar begins with. -/
def isIndicator (c : Char) : Bool :=
  isFlowMark c ||
    c ∈ ['-', '?', ':', '#', '&', '*', '!', '|', '>', '\'', '"', '%', '@', '\x60']

/-- Whether a plain scalar begins with `c` before `cs`: a character of its own, or one of three
marks that do not stand alone. -/
def beginsPlain (inFlow : Bool) (c : Char) (cs : List Char) : Bool :=
  if isSpace c then false
  else if isIndicator c then
    !endsWord cs && (c = '-' || (!inFlow && (c = '?' || c = ':')))
  else true

/-- Whether a character ends a run of text in a plain scalar. -/
def endsPlain (inFlow : Bool) (c : Char) (cs : List Char) : Bool :=
  c = '\t' || (c = ':' && separates inFlow cs) || (inFlow && (isFlowMark c || c = '?'))

/-- A plain scalar whose lines below the first are to be indented by `indent` at least, unless it
stands between brackets, read on from `f`: what has been read, and the place of the next content. -/
def plainScalar (inFlow : Bool) (indent : Nat) (f : Folded) (p : Position) :
    List Char → Folded × Cursor
  | [] => (f, ⟨[], p⟩)
  | c :: cs =>
    if c = ' ' then plainScalar inFlow indent (f.blank c) (p.after c) cs
    else if isBreak c then
      if isMark cs then (f.newline c, ⟨cs, p.after c⟩)
      else plainScalar inFlow indent (f.newline c) (p.after c) cs
    else if endsPlain inFlow c cs || (f.isOpen && (c = '#' || (!inFlow && p.column < indent))) then
      (f, ⟨c :: cs, p⟩)
    else plainScalar inFlow indent (f.push c) (p.after c) cs

end JsonExpect.Yaml
