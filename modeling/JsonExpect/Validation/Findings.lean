import JsonExpect.Validation.Failure

/-!
# Findings

A walk over a document yields `Findings`: the failures it reports, and the first obstacle to writing
one down that it has met. Failures of an element that is only tried on are not reported, but
an obstacle among them counts. Findings are put together in the order of the walk. What a failure
shows of the two sides is written in any case, also where the policy then leaves it out.
-/

namespace JsonExpect

/-- Whether failures carry snapshots, and at which length these are cut. -/
structure SnapshotPolicy where
  included : Bool := true
  maxLength : Option Int := some 2000
deriving DecidableEq, Repr

/-- What a walk over a document has found. -/
structure Findings where
  failures : List Failure
  obstacle : Option Obstacle
deriving DecidableEq, Repr

namespace Findings

instance : EmptyCollection Findings where
  emptyCollection := ⟨[], none⟩

instance : Append Findings where
  append a b := ⟨a.failures ++ b.failures, a.obstacle <|> b.obstacle⟩

/-- What a policy lets a failure carry of a side, which may have no text. -/
def shown (policy : SnapshotPolicy) (side : Option (Except Obstacle String)) : Option String :=
  if policy.included then side.bind Except.toOption else none

/-- What keeps a side from being written. -/
def sideObstacle? : Option (Except Obstacle String) → Option Obstacle
  | some (.error o) => some o
  | _ => none

/-- One failure at a location, with the sides that it shows. The sides are written first. -/
def report (policy : SnapshotPolicy) (location : Location) (reason : Reason)
    (expected actual : Option (Except Obstacle String)) : Findings where
  failures := [⟨location, reason, shown policy expected, shown policy actual⟩]
  obstacle := sideObstacle? expected <|> sideObstacle? actual <|> Location.obstacle? location

/-- Nothing to report but an obstacle that has been met. -/
def met (obstacle : Option Obstacle) : Findings := ⟨[], obstacle⟩

@[simp] theorem failures_empty : (∅ : Findings).failures = [] := rfl

@[simp] theorem failures_append (a b : Findings) :
    (a ++ b).failures = a.failures ++ b.failures := rfl

@[simp] theorem failures_met (obstacle : Option Obstacle) : (met obstacle).failures = [] := rfl

@[simp] theorem obstacle_empty : (∅ : Findings).obstacle = none := rfl

@[simp] theorem obstacle_met (obstacle : Option Obstacle) : (met obstacle).obstacle = obstacle :=
  rfl

@[simp] theorem empty_append (a : Findings) : ∅ ++ a = a := rfl

@[simp] theorem met_none_append (a : Findings) : met none ++ a = a := rfl

@[simp] theorem obstacle_append (a b : Findings) :
    (a ++ b).obstacle = (a.obstacle <|> b.obstacle) := rfl

end Findings

end JsonExpect
