import JsonExpect.Location
import JsonExpect.Value.Snapshot

/-!
# Failures and results

A `Failure` says where a validation failed and for which `Reason`, and may carry snapshots of both
sides. A `Result` holds the failures of a validation in order; it is valid when there are none.
-/

namespace JsonExpect

/-- The kinds of failures. -/
inductive FailureKind where
  | missing
  | typeMismatch
  | valueMismatch
  | valueEqual
  | countMismatch
  | elementCountMismatch
  | noAnyOrderMatch
  | keyPresent
  | invalidUse
deriving DecidableEq, Repr

def FailureKind.name : FailureKind → String
  | .missing => "MISSING"
  | .typeMismatch => "TYPE_MISMATCH"
  | .valueMismatch => "VALUE_MISMATCH"
  | .valueEqual => "VALUE_EQUAL"
  | .countMismatch => "COUNT_MISMATCH"
  | .elementCountMismatch => "ELEMENT_COUNT_MISMATCH"
  | .noAnyOrderMatch => "NO_ANY_ORDER_MATCH"
  | .keyPresent => "KEY_PRESENT"
  | .invalidUse => "INVALID_USE"

/-- Why a validation failed at a location. -/
inductive Reason where
  /-- Something is expected where nothing is. -/
  | missing
  | typeMismatch
  | valueMismatch
  /-- Values are equal that must not be. -/
  | valueEqual
  /-- Two collections have different numbers of entries. -/
  | countMismatch
  /-- More entries are expected than there are. -/
  | tooFewEntries
  /-- A collection has another number of entries than its node requires. -/
  | elementCountMismatch
  /-- No element that is left meets an expected one; `exact` tells how values are compared. -/
  | noAnyOrderMatch (exact : Bool)
  /-- A key is there that must be absent. -/
  | keyPresent (key : Key)
  /-- A number of entries is required of something that is no collection. -/
  | countOfScalar
  /-- Nothing is expected. -/
  | expectedMissing
deriving DecidableEq, Repr

namespace Reason

def kind : Reason → FailureKind
  | .missing => .missing
  | .typeMismatch => .typeMismatch
  | .valueMismatch => .valueMismatch
  | .valueEqual => .valueEqual
  | .countMismatch => .countMismatch
  | .tooFewEntries => .countMismatch
  | .elementCountMismatch => .elementCountMismatch
  | .noAnyOrderMatch _ => .noAnyOrderMatch
  | .keyPresent _ => .keyPresent
  | .countOfScalar => .invalidUse
  | .expectedMissing => .invalidUse

def message : Reason → String
  | .missing => "Expected JSON is present but Actual JSON is missing."
  | .typeMismatch => "Expected and Actual types do not match."
  | .valueMismatch => "Values do not match."
  | .valueEqual => "Values must NOT be equal."
  | .countMismatch => "Expected JSON count does not match Actual JSON."
  | .tooFewEntries => "Expected JSON has more elements than Actual JSON."
  | .elementCountMismatch =>
    "The expected element count is not equal to the actual number of elements."
  | .noAnyOrderMatch exact =>
    "Any order " ++ (if exact then "exact" else "type") ++
      " match found no matches on Actual side satisfying the Expected requirement."
  | .keyPresent key => "Actual JSON must not have key with name: " ++ key.display
  | .countOfScalar =>
    "Invalid element count assertion on a non-collection element. " ++
      "Remove element_count requirements from this key path in the test setup."
  | .expectedMissing =>
    "Expected is nil/None. To assert that actual is absent, check it for None directly."

end Reason

/-- One mismatch. -/
structure Failure where
  location : Location
  reason : Reason
  expected : Option String := none
  actual : Option String := none
deriving DecidableEq, Repr

namespace Failure

def keyPath (f : Failure) : String := Location.text f.location

/-- A failure as paragraphs: what failed, both sides, and where. -/
def text (f : Failure) : String :=
  f.reason.message ++ (f.expected.elim "" ("\n\nExpected: " ++ ·)) ++
    (f.actual.elim "" ("\n\nActual: " ++ ·)) ++
    if f.keyPath = "" then "" else "\n\nKey path: " ++ f.keyPath

/-- A text, or null where there is none. -/
def sideDocument (side : Option String) : Value := side.elim .null .string

def document (f : Failure) : Value :=
  .ofFields [("key_path", .string f.keyPath), ("kind", .string f.reason.kind.name),
    ("message", .string f.reason.message), ("expected", sideDocument f.expected),
    ("actual", sideDocument f.actual)]

end Failure

/-- The outcome of a validation. -/
structure Result where
  failures : List Failure
deriving DecidableEq, Repr

namespace Result

def isValid (r : Result) : Bool := r.failures.isEmpty

def document (r : Result) : Value :=
  .ofFields [("is_valid", .bool r.isValid), ("failures_count", .int r.failures.length),
    ("failures", .array (r.failures.map (·.document)))]

end Result

end JsonExpect
