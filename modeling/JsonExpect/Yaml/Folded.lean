import JsonExpect.Yaml.Cursor

/-!
# Folded text

Text that goes over several lines is folded: a line feed counts as a space, and each line break
after it as itself. The breaks that separate lines or paragraphs of a text are kept.
-/

namespace JsonExpect.Yaml

/-- What the line breaks between two words come to. -/
def foldBreaks : List Char → List Char
  | [] => []
  | ['\n'] => [' ']
  | c :: more => if c = '\n' then more else c :: more

/-- Text that is being folded: what is settled, and the blanks and line breaks after it, which count
only if more text follows. -/
structure Folded where
  /-- The text up to its last character, that one first. -/
  settled : List Char := []
  /-- Blanks before any line break, last first. -/
  blanks : List Char := []
  /-- Line breaks, last first. -/
  breaks : List Char := []
  /-- Whether the first of the line breaks is not to count. -/
  joined : Bool := false

namespace Folded

/-- Takes a blank. At the beginning of a line it does not count. -/
def blank (f : Folded) (c : Char) : Folded :=
  if f.breaks.isEmpty then { f with blanks := c :: f.blanks } else f

/-- Takes a line break. Blanks before it do not count. -/
def newline (f : Folded) (c : Char) : Folded :=
  { f with blanks := [], breaks := breakChar c :: f.breaks }

/-- The text with the blanks and breaks before what follows, last first. -/
def settle (f : Folded) : List Char :=
  let gap :=
    if f.breaks.isEmpty then f.blanks.reverse
    else if f.joined then f.breaks.reverse.tail
    else foldBreaks f.breaks.reverse
  gap.reverse ++ f.settled

/-- Takes a line break that joins two lines. Blanks before it count. -/
def join (f : Folded) : Folded := { settled := f.settle, breaks := ['\n'], joined := true }

/-- Takes a character of text. -/
def push (f : Folded) (c : Char) : Folded := { settled := c :: f.settle }

/-- Whether blanks or breaks have been taken since the last character of text. -/
def isOpen (f : Folded) : Bool := !f.blanks.isEmpty || !f.breaks.isEmpty

/-- Everything up to the last character of text. -/
def text (f : Folded) : List Char := f.settled.reverse

/-- Everything, with the blanks and breaks at the end. -/
def fullText (f : Folded) : List Char := f.settle.reverse

end Folded

end JsonExpect.Yaml
