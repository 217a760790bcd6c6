import JsonExpect.Path.Basic

/-!
# Writing paths

Keys follow a dot, except at the front; indices and the index wildcard stand in brackets. Dots and
brackets of a key are escaped by a backslash, and so is the asterisk of the key that is one.
-/

namespace JsonExpect

/-- A backslash before every dot, bracket and closing bracket. -/
def escapeMarks (name : List Char) : List Char :=
  name.flatMap fun c => if c = '.' ∨ c = '[' ∨ c = ']' then ['\\', c] else [c]

/-- The written form of a key. -/
def escapeKey (name : List Char) : List Char :=
  if name = ['*'] then ['\\', '*'] else escapeMarks name

/-- The written form of a component, without a dot before it. -/
def Component.chars : Component → List Char
  | .key name => escapeKey name.toList
  | .index position => '[' :: Nat.toDigits 10 position ++ [']']
  | .anyKey => ['*']
  | .anyIndex => ['[', '*', ']']

namespace Path

/-- The written form of the components that follow the first. -/
def charsAfter : List Component → List Char
  | [] => []
  | c :: cs => (if c.isArrayAccess then c.chars else '.' :: c.chars) ++ charsAfter cs

/-- The written form of components. -/
def chars : List Component → List Char
  | [] => []
  | c :: cs => c.chars ++ charsAfter cs

/-- The written form of a path. -/
def format (p : Path) : String := String.ofList (chars p.components)

/-- The text of a path for people: the root, which has an empty written form, is named. -/
def display (p : Path) : String :=
  if p.isRoot then "<root>" else p.format

end Path

end JsonExpect
