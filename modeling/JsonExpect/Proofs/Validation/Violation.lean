import JsonExpect.Proofs.Validation.Findings
import JsonExpect.Proofs.Value.Document

/-!
# The violations of an expected document

What an expected document asks for is said location by location: `Node.violation?` compares what
stands at one location, and `Node.reaches` tells at which locations anything is asked for, namely
those whose fronts all lead into two collections of a kind with numbers of entries that agree. Where
no array element may match in any order, a comparison reports the violations at the locations
reached, one each and in pre-order (`compare_eq_violations`), unless one of them shows an integer of
too many digits.
-/

namespace JsonExpect

/-- Whether two numbers of entries meet the demand of a node: equal ones where it counts, otherwise
no more expected ones than there are. -/
def Node.agrees (node : Node) (expected actual : Nat) : Bool :=
  if node.flag .equalCount then expected = actual else expected ≤ actual

/-- Why a value violates what is expected in its place, inner values apart. -/
def Node.violation? (node : Node) (expected actual : Value) : Option Reason :=
  if expected.isMissing || expected.isNull then none
  else if actual.isMissing then some .missing
  else if expected.kind? ≠ actual.kind? then some .typeMismatch
  else if expected.isCollection then
    if node.agrees expected.size actual.size then none
    else if node.flag .equalCount then some .countMismatch
    else some .tooFewEntries
  else if node.flag .valueNotEqual then
    if expected.sameScalar actual then some .valueEqual else none
  else if node.flag .exactMatch && !expected.sameScalar actual then some .valueMismatch
  else none

/-- Whether a comparison goes into two values: collections of a kind whose numbers of entries
agree. -/
def Node.enters (node : Node) (expected actual : Value) : Bool :=
  expected.isCollection && expected.kind? = actual.kind? && node.agrees expected.size actual.size

/-- Whether a comparison gets to a location: it goes into the values at every shorter front. -/
def Node.reaches (node : Node) (expected actual : Value) (l : Location) : Bool :=
  (List.range l.length).all fun i =>
    (node.along (l.take i)).enters (expected.locate (l.take i)) (actual.locate (l.take i))

/-- What a location violates, if it is reached. -/
def Node.violationAt? (node : Node) (expected actual : Value) (l : Location) : Option Reason :=
  if node.reaches expected actual l then
    (node.along l).violation? (expected.locate l) (actual.locate l)
  else none

/-- How a failure shows a side: with its type, with its number of entries, or plainly. -/
def Reason.side (reason : Reason) (limit : Option Int) (v : Value) : Except Obstacle String :=
  match reason with
  | .typeMismatch => (v.snapshot limit).map (· ++ " (Type: " ++ v.typeName ++ ")")
  | .countMismatch | .tooFewEntries => v.countedSnapshot limit v.size
  | _ => v.snapshot limit

/-- The failure that reports a violation. -/
def Reason.failure (reason : Reason) (policy : SnapshotPolicy) (l : Location)
    (expected actual : Value) : Failure where
  location := l
  reason := reason
  expected := Findings.shown policy (some (reason.side policy.maxLength expected))
  actual := Findings.shown policy (some (reason.side policy.maxLength actual))

/-- What a comparison finds at a location inside the values at `base`. -/
def Node.findingsAt (policy : SnapshotPolicy) (base : Location) (node : Node)
    (expected actual : Value) (l : Location) : Findings :=
  match node.violationAt? expected actual l with
  | some reason =>
    .report policy (base ++ l) reason (some (reason.side policy.maxLength (expected.locate l)))
      (some (reason.side policy.maxLength (actual.locate l)))
  | none => ∅

/-- Whatever a failure shows of a value, it cannot where the value holds an integer of too many
digits. -/
theorem Reason.sideObstacle?_side (reason : Reason) (limit : Option Int) (v : Value) :
    Findings.sideObstacle? (some (reason.side limit v)) = v.obstacle? := by
  cases reason with
  | typeMismatch =>
    exact (Findings.sideObstacle?_map _ _).trans (Findings.sideObstacle?_snapshot limit v)
  | countMismatch | tooFewEntries => exact Findings.sideObstacle?_countedSnapshot limit v.size v
  | _ => exact Findings.sideObstacle?_snapshot limit v

/-- Whether no element of an array inside a document may match in any order. -/
def Node.KeepsOrder (node : Node) (expected : Value) : Prop :=
  ∀ l ∈ expected.locations, l.getLast?.any Key.isIndex → (node.along l).flag .anyOrder = false

namespace Node

theorem reaches_cons (node : Node) (expected actual : Value) (k : Key) (l : Location) :
    node.reaches expected actual (k :: l) =
      (node.enters expected actual &&
        (node.resolveKey k).reaches (expected.entry k) (actual.entry k) l) := by
  unfold reaches
  rw [List.length_cons, List.range_succ_eq_map, List.all_cons, List.all_map]
  rfl

/-- A location is reached when its front is and the values there are gone into. -/
theorem reaches_concat (node : Node) (expected actual : Value) (l : Location) (k : Key) :
    node.reaches expected actual (l ++ [k]) =
      (node.reaches expected actual l &&
        (node.along l).enters (expected.locate l) (actual.locate l)) := by
  induction l generalizing node expected actual with
  | nil => rw [List.nil_append, reaches_cons]; exact Bool.and_comm ..
  | cons j l ih => rw [List.cons_append, reaches_cons, ih, reaches_cons, Bool.and_assoc]; rfl

theorem violationAt?_nil (node : Node) (expected actual : Value) :
    node.violationAt? expected actual [] = node.violation? expected actual := rfl

theorem violationAt?_cons (node : Node) (expected actual : Value) (k : Key) (l : Location) :
    node.violationAt? expected actual (k :: l) =
      if node.enters expected actual then
        (node.resolveKey k).violationAt? (expected.entry k) (actual.entry k) l
      else none := by
  unfold violationAt?
  rw [reaches_cons]
  cases node.enters expected actual <;> rfl

theorem findingsAt_cons (policy : SnapshotPolicy) (base : Location) (node : Node)
    {expected actual : Value} (h : node.enters expected actual = true) (k : Key) (l : Location) :
    node.findingsAt policy base expected actual (k :: l) =
      (node.resolveKey k).findingsAt policy (base ++ [k]) (expected.entry k) (actual.entry k)
        l := by
  unfold findingsAt
  rw [violationAt?_cons, if_pos h, List.append_assoc]
  rfl

theorem findingsAt_cons_of_not_enters (policy : SnapshotPolicy) (base : Location) (node : Node)
    {expected actual : Value} (h : node.enters expected actual = false) (k : Key) (l : Location) :
    node.findingsAt policy base expected actual (k :: l) = ∅ := by
  unfold findingsAt
  rw [violationAt?_cons, if_neg (by simp [h])]

end Node

end JsonExpect
