import JsonExpect.Location

/-!
# Selectors

A `Selector` picks values out of a document, each as a `Spot`: the value together with the values
around it, so that one can go back from a part to what holds it. A step that does not fit a value
picks nothing, but a position in something that has no length, or before its first element, is a
`SelectorFault`.
-/

namespace JsonExpect

/-- A way to pick values out of a document. -/
inductive Selector where
  /-- The whole document. -/
  | root
  /-- The value itself. -/
  | self
  /-- What holds the value. -/
  | holder
  /-- The members of some names; an asterisk among these means all members. -/
  | members (names : List String)
  /-- The elements at some positions, counted from the end when negative. -/
  | elements (positions : List Int)
  /-- The elements from a position up to another, at a distance from each other. -/
  | slice (start stop step : Option Int)
  /-- What the second one picks from what the first one picks. -/
  | next (first second : Selector)
  /-- What the second one picks from what the first one picks and from everything inside that. -/
  | descent (first second : Selector)
  /-- What the first one picks, and then what the second one does. -/
  | union (first second : Selector)
  /-- What both pick, which is not worked out. -/
  | both (first second : Selector)
  /-- What the first one picks if the second one picks something from it, or if it does not. -/
  | filter (present : Bool) (first second : Selector)
deriving DecidableEq, Repr, Inhabited

/-- How a value is reached from what holds it. -/
inductive Step where
  /-- Nothing holds it. -/
  | whole
  | member (k : Key)
  | element (position : Int)
  /-- It is no part, but the name of what holds it. -/
  | name
deriving DecidableEq, Repr, Inhabited

/-- Why a selector picks nothing, not even that. -/
inductive SelectorFault where
  /-- A value of a class has no length. -/
  | noLength (className : String)
  /-- An object has no member of a number. -/
  | noMember (n : Int)
  /-- A position before the first element of a value of a class. -/
  | outside (className : String)
  | largePosition
  | zeroStep
  | bothAsked
  /-- Nothing holds the whole document. -/
  | noHolder
  /-- The name of an object cannot be written. -/
  | noName (e : Obstacle)
deriving DecidableEq, Repr

def SelectorFault.message : SelectorFault → String
  | .noLength className => "object of type '" ++ className ++ "' has no len()"
  | .noMember n => toString n
  | .outside className =>
    match className with
    | "bytes" => "index out of range"
    | "str" => "string index out of range"
    | name => name ++ " index out of range"
  | .largePosition => "cannot fit 'int' into an index-sized integer"
  | .zeroStep => "slice step cannot be zero"
  | .bothAsked => ""
  | .noHolder => "'NoneType' object has no attribute 'value'"
  | .noName e => e.message

/-- A value in a document, how it is reached, and the values around it, from the inside out. -/
structure Spot where
  /-- The value. A name may turn out to have no written form. -/
  value : Except SelectorFault Value
  step : Step := .whole
  around : List (Value × Step) := []
deriving Inhabited

end JsonExpect
