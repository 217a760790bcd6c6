import JsonExpect.Selector.Basic

/-!
# Names of objects

A member whose name is null gives an object a name: the way to the object, where the value of that
member stands in place of the last step. `Spot.named` is the spot of such a name. On the way to it
the objects further out go by their own names as well, if they have any.
-/

namespace JsonExpect

/-- Whether a character has a meaning of its own in selectors. -/
def isSelectorMark (c : Char) : Bool := "*.[]()$,:|&~".toList.contains c

/-- A part of a name, between quotes where it has a mark in it. -/
def namePart (marked : Bool) (text : String) : String :=
  if marked then "'" ++ text ++ "'" else text

/-- A text as a part of a name. -/
def textPart (text : String) : String := namePart (text.toList.any isSelectorMark) text

namespace Step

/-- A step as a part of a name. The first one is none. -/
def namePart? : Step → Except Obstacle (Option String)
  | .whole => .ok none
  | .name => .ok none
  | .element position => .ok (some s!"[{position}]")
  | .member (.string text) => .ok (some (textPart text))
  | .member (.tuple items) =>
    if Key.anyLongInteger items then .error .longInteger
    else
      let isMark (k : Key) : Bool := match k with
        | .string text => text.toList.length = 1 && text.toList.all isSelectorMark
        | _ => false
      .ok (some (namePart (items.any isMark) (Key.tuple items).literal))
  | .member k => .error (.key k)

end Step

namespace Spot

/-- What names an object. -/
def nameGiven? : Value → Option Value
  | .object members => findMember? .null members
  | _ => none

/-- What a value and the step to it add to the names of what is inside. -/
def namePart? (place : Value × Step) : Except Obstacle (Option String) :=
  match nameGiven? place.1 with
  | some given =>
    if given.holdsLongInteger then .error .longInteger else .ok (some (textPart given.display))
  | none => place.2.namePart?

/-- The parts of a name, from places that begin with the outermost one. -/
def nameParts : List (Value × Step) → Except Obstacle (List String)
  | [] => .ok []
  | place :: rest =>
    match namePart? place, nameParts rest with
    | .ok part, .ok parts => .ok (part.toList ++ parts)
    | _, .error .longInteger => .error .longInteger
    | .error e, _ => .error e
    | .ok _, .error e => .error e

/-- The spot of the name of an object at some places, the innermost of which is the object. -/
def named (places : List (Value × Step)) : Spot where
  value :=
    match nameParts places.reverse with
    | .ok parts => .ok (.string (".".intercalate parts))
    | .error e => .error (.noName e)
  step := .name
  around := places

end Spot

end JsonExpect
