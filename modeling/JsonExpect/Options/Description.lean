import JsonExpect.Location
import JsonExpect.Options.Node

/-!
# Option trees as text

A node is described by its name, the options that hold there, its children in the order of their
names and its template, each level two spaces further in. A tree in which an element count of too
many digits is required has no description.
-/

namespace JsonExpect.Node

/-- The options that hold at a node, as they are listed. -/
def activeOptions (n : Node) : List String :=
  (Flag.all.filter n.flag).map (·.name) ++
    n.elementCount.toList.map fun count => s!"element_count({count})"

/-- Names in ascending order of code points. -/
def sortByName (texts : List (String × α)) : List (String × α) :=
  texts.mergeSort fun a b => textLE a.1.toList b.1.toList

mutual

/-- The lines that describe a node at a depth. Above depth zero there is no margin. -/
def describe (depth : Int) : Node → List String
  | ⟨name, defaults, own, children, template⟩ =>
    let margin := String.ofList (List.replicate (2 * depth).toNat ' ')
    let active := activeOptions ⟨name, defaults, own, [], none⟩
    let below := describeChildren (depth + 1) children
    [margin ++ "Name: " ++ name.getD "<Unnamed>",
      margin ++ "Options: " ++ if active.isEmpty then "(defaults)" else ", ".intercalate active] ++
    (if below.isEmpty then [] else (margin ++ "Children:") :: (sortByName below).flatMap (·.2)) ++
    match describeTemplate (depth + 1) template with
    | [] => []
    | lines => (margin ++ "Wildcard:") :: lines

/-- The lines of each child, with its name. -/
def describeChildren (depth : Int) : List (String × Node) → List (String × List String)
  | [] => []
  | (name, c) :: cs => (name, describe depth c) :: describeChildren depth cs

/-- The lines of a template, none where there is none. -/
def describeTemplate (depth : Int) : Option Node → List String
  | none => []
  | some t => describe depth t

end

mutual

/-- Whether an element count of too many digits is required at a node or below it. -/
def holdsLongCount : Node → Bool
  | ⟨_, _, own, children, template⟩ =>
    own.elementCount.any hasLongNumeral || childHoldsLongCount children ||
      templateHoldsLongCount template

/-- Whether one is required in some of the children. -/
def childHoldsLongCount : List (String × Node) → Bool
  | [] => false
  | (_, c) :: cs => holdsLongCount c || childHoldsLongCount cs

/-- Whether one is required in a template. -/
def templateHoldsLongCount : Option Node → Bool
  | none => false
  | some t => holdsLongCount t

end

/-- The tree as indented text. -/
def description (n : Node) (depth : Int) : Except Obstacle String :=
  if n.holdsLongCount then .error .longInteger else .ok ("\n".intercalate (n.describe depth))

end JsonExpect.Node
