import JsonExpect.Yaml.Scalar

/-!
# What collections hold

Members may be merged from other members, or from several lists of them; those that are given
themselves count more, and of several lists the first ones. `Node.contents` says what a collection
holds once that is done, if it is written as its tag demands.
-/

namespace JsonExpect.Yaml

/-- Names and values. -/
abbrev Entries := List (Node × Node)

/-- What a collection holds. -/
inductive Contents where
  | items (nodes : List Node)
  | members (entries : Entries)
  /-- Members in order, a name as often as it is given. -/
  | pairs (entries : Entries)
  | set (entries : Entries)

namespace Node

/-- A name that stands for the whole is a text where it is given as a name. -/
def asName : Node → Node
  | .scalar .whole text => .scalar .string text
  | n => n

mutual

/-- The members of a node with those that are to be merged into it in front. -/
def flattened : Node → Except Fault Entries
  | .members _ entries =>
    match splitMerges entries with
    | .ok (merged, own) => .ok (merged ++ own)
    | .error e => .error e
  | .inner true => .ok []
  | _ => .error .malformed

/-- The members that are to be merged, and all others. -/
def splitMerges : List (Node × Node) → Except Fault (Entries × Entries)
  | [] => .ok ([], [])
  | (k, v) :: es =>
    if k.tag = .merge then
      match mergedFrom v, splitMerges es with
      | .ok found, .ok (merged, own) => .ok (found ++ merged, own)
      | .error e, _ => .error e
      | _, .error e => .error e
    else
      match splitMerges es with
      | .ok (merged, own) => .ok (merged, (k.asName, v) :: own)
      | .error e => .error e

/-- The members that a node gives to those around it. -/
def mergedFrom : Node → Except Fault Entries
  | .members tag entries => flattened (.members tag entries)
  | .inner true => .ok []
  | .items _ nodes => flattenedAll nodes
  | _ => .error .malformed

/-- The members of nodes, those of the last one in front. -/
def flattenedAll : List Node → Except Fault Entries
  | [] => .ok []
  | n :: ns =>
    match flattened n, flattenedAll ns with
    | .ok es, .ok more => .ok (more ++ es)
    | .error e, _ => .error e
    | _, .error e => .error e

end

/-- The one member of each node. -/
def singleMembers : List Node → Except Fault Entries
  | [] => .ok []
  | .members _ [e] :: ns => (singleMembers ns).map (e :: ·)
  | _ => .error .malformed

/-- What a collection holds. -/
def contents (n : Node) : Except Fault Contents :=
  match n.tag, n with
  | .items, .items _ nodes => .ok (.items nodes)
  | .orderedPairs, .items _ nodes => (singleMembers nodes).map .pairs
  | .members, n => n.flattened.map .members
  | .set, n => n.flattened.map .set
  | _, _ => .error .malformed

/-- Whether the node is read as a collection. -/
def isCollection (n : Node) : Bool :=
  match n.tag with
  | .items | .members | .orderedPairs | .set => true
  | _ => false

mutual

/-- The text of a scalar, or of the member that stands for the whole of a node. -/
def scalarText : Node → Except Fault (List Char)
  | .scalar _ text => .ok text
  | .members _ entries => wholeText entries
  | _ => .error .malformed

/-- The text of the first member that stands for the whole. -/
def wholeText : List (Node × Node) → Except Fault (List Char)
  | [] => .error .malformed
  | (k, v) :: es => if k.tag = .whole then scalarText v else wholeText es

end

/-- The value of a node that is read as a scalar. -/
def scalarValue (n : Node) : Except Fault Value :=
  match n.scalarText with
  | .error e => .error e
  | .ok text =>
    match n.tag, n with
    | .moment, .members .. => .error .momentOfCollection
    | tag, _ => tag.read text

end Node

end JsonExpect.Yaml
