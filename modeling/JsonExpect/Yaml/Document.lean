import JsonExpect.Yaml.Node.Contents
import JsonExpect.Yaml.Node.Parser

/-!
# Documents

`Yaml.read` gives the value of the one document of a text, null where there is none, or says what is
wrong with the text. Of several faults the first counts: whatever is malformed as a text comes
first, then the nodes are read level by level, each collection from its first entry to its last.
Items become arrays and members objects, in which the last value of a name counts. Names are
scalars.
-/

namespace JsonExpect.Yaml

namespace Contents

/-- The nodes of a collection in order, and whether each is a name that has to be unchanging. -/
def nodes : Contents → List (Bool × Node)
  | .items nodes => nodes.map (false, ·)
  | .members entries => entries.flatMap fun e => [(true, e.1), (false, e.2)]
  | .set entries => entries.flatMap fun e => [(true, e.1), (false, e.2)]
  | .pairs entries => entries.flatMap fun e => [(false, e.1), (false, e.2)]

end Contents

namespace Node

/-- The collections among the nodes of a collection, if the other ones can be read. -/
def inside : List (Bool × Node) → Except Fault (List Node)
  | [] => .ok []
  | (isName, n) :: rest =>
    if n.isCollection then
      if isName then .error .malformed
      else
        match n, inside rest with
        | .inner _, found => found
        | n, .ok found => .ok (n :: found)
        | _, .error e => .error e
    else
      match n.scalarValue with
      | .ok _ => inside rest
      | .error e => .error e

/-- The first fault of collections and of everything inside them, level by level. -/
def faultOf : Nat → List Node → Option Fault
  | 0, _ => none
  | _, [] => none
  | fuel + 1, n :: queue =>
    match n.contents with
    | .error f => some f
    | .ok c =>
      match inside c.nodes with
      | .error f => some f
      | .ok more => faultOf fuel (queue ++ more)

/-- The member with its value added to others, if its name is one. -/
def addMember (members : List (Key × Value)) (name value : Value) :
    Except Fault (List (Key × Value)) :=
  match Key.ofValue? name with
  | some k => .ok (putMember k value members)
  | none => .error .malformed

/-- The value of a tree, which is not deeper than a number. -/
def build : Nat → Node → Except Fault Value
  | 0, _ => .error .malformed
  | _, .inner _ => .error .endless
  | depth + 1, n =>
    let pair (e : Node × Node) : Except Fault (Value × Value) := do
      return (← build depth e.1, ← build depth e.2)
    let named (entries : Entries) : Except Fault (List (Key × Value)) := do
      (← entries.mapM pair).foldlM (fun ms e => addMember ms e.1 e.2) []
    if n.isCollection then
      match n.contents with
      | .error f => .error f
      | .ok (.items nodes) => (nodes.mapM (build depth)).map .array
      | .ok (.members entries) => (named entries).map .object
      | .ok (.set entries) => (named entries).map fun ms => .set (ms.map (·.1))
      | .ok (.pairs entries) =>
        (entries.mapM pair).map fun es => .array (es.map fun e => .tuple [e.1, e.2])
    else n.scalarValue

/-- The value of the tree of a document. -/
def value (n : Node) : Except Fault Value :=
  match if n.isCollection then faultOf (n.size + 1) [n] else none with
  | some f => .error f
  | none => build (n.size + 1) n

end Node

/-- The value that a text writes. -/
def read (text : String) : Except Fault Value :=
  let cs := uniformBreaks text.toList
  if cs.all isAllowed then
    match Node.ofTokens (tokens cs) with
    | .error f => .error f
    | .ok none => .ok .null
    | .ok (some n) => n.value
  else .error .malformed

end JsonExpect.Yaml
