import JsonExpect.Validation.Comparison

/-!
# Validation

A validation first tests the constraints on the actual document and then compares it with what is
expected. It reports every failure, unless a failure arises that cannot be written down.
-/

namespace JsonExpect

/-- Everything that both walks find, in order. -/
def findings (policy : SnapshotPolicy) (node : Node) (expected actual : Value) : Findings :=
  Constraints.check policy [] node actual ++ Comparison.compare policy [] node expected actual

/-- Validates an actual document against an expected one under an option tree. -/
def validate (policy : SnapshotPolicy) (node : Node) (expected actual : Value) :
    Except Obstacle Result :=
  let found := findings policy node expected actual
  match found.obstacle with
  | some obstacle => .error obstacle
  | none => .ok ⟨found.failures⟩

end JsonExpect
