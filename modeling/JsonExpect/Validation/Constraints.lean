import JsonExpect.Options.Node
import JsonExpect.Validation.Findings

/-!
# Constraints on the actual document

Some options speak of the actual document alone: keys that must be absent, and the number of
elements that a collection must have. `Constraints.check` walks the whole actual document and tests
them, whatever is expected.
-/

namespace JsonExpect

/-- The configuration of the member of a key, which is filed under the text of the key. A null leads
to no child. -/
def Node.resolveKey (n : Node) : Key → Node
  | .null => n.resolveUnnamed
  | k => n.resolve k.display

namespace Constraints

/-- A required number of elements as a failure shows it. -/
def countText (n : Int) : Except Obstacle String :=
  if hasLongNumeral n then .error .longInteger else .ok s!"count: {n}"

/-- The required number of elements against the number there is. -/
def checkCount (policy : SnapshotPolicy) (location : Location) (node : Node) (count : Nat) :
    Findings :=
  match node.elementCount with
  | none => ∅
  | some n =>
    if (count : Int) = n then ∅
    else .report policy location .elementCountMismatch (some (countText n))
      (some (.ok s!"count: {count}"))

/-- The member of a key against the demand that the key be absent; `holder` is the object. -/
def checkKey (policy : SnapshotPolicy) (location : Location) (node : Node) (holder : Value)
    (k : Key) : Findings :=
  if node.flag .keyMustBeAbsent then
    .report policy location (.keyPresent k) none (some (holder.snapshot policy.maxLength))
  else ∅

mutual

/-- The failures of a value and of everything inside it. -/
def check (policy : SnapshotPolicy) (location : Location) (node : Node) : Value → Findings
  | .missing => ∅
  | .object members =>
    checkMembers policy location node (.object members) members ++
      checkCount policy location node members.length
  | .array items =>
    checkItems policy location node 0 items ++ checkCount policy location node items.length
  | _ =>
    if node.elementCount.isSome then .report policy location .countOfScalar none none else ∅

/-- The failures of members, in order; `holder` is the object they belong to. -/
def checkMembers (policy : SnapshotPolicy) (location : Location) (node : Node) (holder : Value) :
    List (Key × Value) → Findings
  | [] => ∅
  | (k, v) :: ms =>
    .met k.obstacle? ++ checkKey policy (location ++ [k]) (node.resolveKey k) holder k ++
      check policy (location ++ [k]) (node.resolveKey k) v ++
      checkMembers policy location node holder ms

/-- The failures of items, in order, the first of which stands at `index`. -/
def checkItems (policy : SnapshotPolicy) (location : Location) (node : Node) (index : Nat) :
    List Value → Findings
  | [] => ∅
  | v :: vs =>
    check policy (location ++ [.int index]) (node.resolve (toString index)) v ++
      checkItems policy location node (index + 1) vs

end

end Constraints

end JsonExpect
