import JsonExpect.Yaml.Label

/-!
# Nodes of a document

A document is a tree of nodes: scalars, items and members, each with the tag that says what it is to
be read as. Where an alias stands, the tree that it means is repeated; an alias inside of what it
means ends the tree.
-/

namespace JsonExpect.Yaml

/-- What a node is to be read as. -/
inductive Tag where
  | null
  | bool
  | int
  | float
  | binary
  | moment
  | string
  | items
  | members
  /-- Members in order, a name as often as it is given. -/
  | orderedPairs
  | set
  /-- The name of a member whose value is to be merged into the members around it. -/
  | merge
  /-- The name of a member that stands for the whole. -/
  | whole
  /-- A tag that says nothing here. -/
  | other
deriving DecidableEq, Repr, Inhabited

/-- What the tags of the format begin with. -/
def tagStart : String := "tag:yaml.org,2002:"

/-- The tags by their names. -/
def Tag.names : List (String × Tag) :=
  [("null", .null), ("bool", .bool), ("int", .int), ("float", .float), ("binary", .binary),
    ("timestamp", .moment), ("str", .string), ("seq", .items), ("map", .members),
    ("omap", .orderedPairs), ("pairs", .orderedPairs), ("set", .set), ("merge", .merge),
    ("value", .whole)]

/-- The tag of a full name. -/
def Tag.ofName (name : String) : Tag :=
  match names.find? fun n => tagStart ++ n.1 = name with
  | some n => n.2
  | none => .other

/-- A part of a document. -/
inductive Node where
  | scalar (tag : Tag) (text : List Char)
  | items (tag : Tag) (nodes : List Node)
  | members (tag : Tag) (entries : List (Node × Node))
  /-- An alias inside of what it means: of items, or of members. -/
  | inner (members : Bool)
deriving Repr, Inhabited

namespace Node

/-- The null that stands where nothing is written. -/
def empty : Node := .scalar .null []

/-- What the node is to be read as. -/
def tag : Node → Tag
  | .scalar tag _ => tag
  | .items tag _ => tag
  | .members tag _ => tag
  | .inner true => .members
  | .inner false => .items

mutual

/-- The number of nodes of a tree. -/
def size : Node → Nat
  | .scalar _ _ => 1
  | .inner _ => 1
  | .items _ nodes => sizeOfAll nodes + 1
  | .members _ entries => sizeOfEntries entries + 1

/-- The number of nodes of trees. -/
def sizeOfAll : List Node → Nat
  | [] => 0
  | n :: ns => size n + sizeOfAll ns

/-- The number of nodes of names and values. -/
def sizeOfEntries : List (Node × Node) → Nat
  | [] => 0
  | (k, v) :: es => size k + size v + sizeOfEntries es

end

end Node

end JsonExpect.Yaml
