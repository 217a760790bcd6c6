import JsonExpect.Validation.Constraints

/-!
# Comparison of an expected document with an actual one

`Comparison.compare` walks the expected document in step with the actual one. What the expected
document does not mention is free; a null in it asks for nothing. Array elements are compared by
position, except those whose configuration lets them match in any order: each of these takes, in
turn, the first element of the pool that it accepts, the pool being what no fixed position has used.
-/

namespace JsonExpect

/-- The demand of a node on the numbers of entries of two collections, and why it is not met. -/
def Node.countViolation? (node : Node) (expected actual : Nat) : Option Reason :=
  if node.flag .equalCount then
    if expected = actual then none else some .countMismatch
  else if actual < expected then some .tooFewEntries
  else none

namespace Comparison

/-- A failure that shows both sides. -/
def mismatch (policy : SnapshotPolicy) (location : Location) (reason : Reason)
    (expected actual : Value) : Findings :=
  .report policy location reason (some (expected.snapshot policy.maxLength))
    (some (actual.snapshot policy.maxLength))

/-- A failure that shows both sides with their types. -/
def typeMismatch (policy : SnapshotPolicy) (location : Location) (expected actual : Value) :
    Findings :=
  let side (v : Value) :=
    (v.snapshot policy.maxLength).map (· ++ " (Type: " ++ v.typeName ++ ")")
  .report policy location .typeMismatch (some (side expected)) (some (side actual))

/-- A failure that shows two collections with their numbers of entries. -/
def countMismatch (policy : SnapshotPolicy) (location : Location) (reason : Reason)
    (expectedCount actualCount : Nat) (expected actual : Value) : Findings :=
  .report policy location reason (some (expected.countedSnapshot policy.maxLength expectedCount))
    (some (actual.countedSnapshot policy.maxLength actualCount))

/-- An expected element that nothing in the pool meets. -/
def unmatched (policy : SnapshotPolicy) (location : Location) (child : Node) (expected : Value)
    (pool : List Value) : Findings :=
  let left := (Value.array pool).snapshot policy.maxLength
  .report policy location (.noAnyOrderMatch (child.flag .exactMatch))
    (some (expected.snapshot policy.maxLength))
    (some (left.map ("Remaining unmatched elements: " ++ ·)))

/-- Two values of the same kind that are no collections. -/
def compareScalars (policy : SnapshotPolicy) (location : Location) (node : Node)
    (expected actual : Value) : Findings :=
  if node.flag .valueNotEqual then
    if expected.sameScalar actual then mismatch policy location .valueEqual expected actual else ∅
  else if node.flag .exactMatch && !expected.sameScalar actual then
    mismatch policy location .valueMismatch expected actual
  else ∅

/-- An expected value that is no collection against an actual one. -/
def compareLeaf (policy : SnapshotPolicy) (location : Location) (node : Node)
    (expected actual : Value) : Findings :=
  if actual.isMissing then mismatch policy location .missing expected actual
  else if expected.kind?.isSome && expected.kind? = actual.kind? then
    compareScalars policy location node expected actual
  else typeMismatch policy location expected actual

/-- Where an expected element finds its match: the rest of the pool once the first element that the
trial accepts is taken out, if there is one, and the obstacle met in the trials up to it. -/
def takeFirst (trial : Value → Findings) : List Value → Option (List Value) × Option Obstacle
  | [] => (none, none)
  | a :: pool =>
    let found := trial a
    if found.failures.isEmpty then (some pool, found.obstacle)
    else
      let (rest, obstacle) := takeFirst trial pool
      (rest.map (a :: ·), found.obstacle <|> obstacle)

/-- The configuration of an element. -/
def element (node : Node) (index : Nat) : Node := node.resolve (toString index)

/-- Whether the expected element at an index may match in any order. -/
def isFree (node : Node) (index : Nat) : Bool := (element node index).flag .anyOrder

/-- The actual elements, from `index` on, that no fixed position uses when `expected` more elements
are expected there. -/
def pool (node : Node) (expected index : Nat) : List Value → List Value
  | [] => []
  | a :: actual =>
    let rest := pool node (expected - 1) (index + 1) actual
    if expected = 0 || isFree node index then a :: rest else rest

mutual

/-- The failures of an actual value against an expected one. -/
def compare (policy : SnapshotPolicy) (location : Location) (node : Node)
    (expected actual : Value) : Findings :=
  match expected with
  | .missing => ∅
  | .null => ∅
  | .object members =>
    match actual with
    | .object others =>
      match node.countViolation? members.length others.length with
      | some reason =>
        countMismatch policy location reason members.length others.length (.object members)
          (.object others)
      | none => compareMembers policy location node members others
    | actual => compareLeaf policy location node (.object members) actual
  | .array items =>
    match actual with
    | .array others =>
      match node.countViolation? items.length others.length with
      | some reason =>
        countMismatch policy location reason items.length others.length (.array items)
          (.array others)
      | none =>
        compareFixed policy location node 0 items others ++
          compareFree policy location node 0 items (pool node items.length 0 others)
    | actual => compareLeaf policy location node (.array items) actual
  | expected => compareLeaf policy location node expected actual
termination_by structural expected

/-- The failures of the members of an object against the expected ones, in order. -/
def compareMembers (policy : SnapshotPolicy) (location : Location) (node : Node)
    (expected actual : List (Key × Value)) : Findings :=
  match expected with
  | [] => ∅
  | (k, v) :: ms =>
    .met k.obstacle? ++
      compare policy (location ++ [k]) (node.resolveKey k) v
        ((findMember? k actual).getD .missing) ++
      compareMembers policy location node ms actual
termination_by structural expected

/-- The failures of the elements at fixed positions, the first of which stand at `index`. -/
def compareFixed (policy : SnapshotPolicy) (location : Location) (node : Node) (index : Nat)
    (expected actual : List Value) : Findings :=
  match expected with
  | [] => ∅
  | v :: vs =>
    (if isFree node index then ∅
      else
        compare policy (location ++ [.int index]) (element node index) v (actual.headD .missing)) ++
      compareFixed policy location node (index + 1) vs actual.tail
termination_by structural expected

/-- The failure of the first element in any order that finds no match in the pool, where the first
element stands at `index`. -/
def compareFree (policy : SnapshotPolicy) (location : Location) (node : Node) (index : Nat)
    (expected pool : List Value) : Findings :=
  match expected with
  | [] => ∅
  | v :: vs =>
    if isFree node index then
      let taken :=
        takeFirst (fun a => compare policy (location ++ [.int index]) (element node index) v a) pool
      .met taken.2 ++
        match taken.1 with
        | some rest => compareFree policy location node (index + 1) vs rest
        | none => unmatched policy location (element node index) v pool
    else compareFree policy location node (index + 1) vs pool
termination_by structural expected

end

end Comparison

end JsonExpect
