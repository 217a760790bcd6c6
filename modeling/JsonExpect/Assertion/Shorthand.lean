import JsonExpect.Assertion.Basic

/-!
# Shorthands

Assertions in one call, each with a fixed choice of options at the root. Three of them are
deprecated and warn of it.
-/

namespace JsonExpect

/-- An assertion in one call. -/
inductive Shorthand where
  | typeMatch
  | exactMatch
  /-- Same types, values and numbers of entries everywhere; both sides may be absent. -/
  | equal
  | typeSubset
  | valueSubset
deriving DecidableEq, Repr

/-- Why a shorthand fails. -/
inductive ShorthandError where
  | conversion (e : ConversionFault)
  | invalid (r : Result)
  /-- One side is absent and the other is not. -/
  | oneSided (expectedMissing : Bool) (expected actual : Value)
  | obstacle (e : Obstacle)

namespace Shorthand

def all : List Shorthand := [.typeMatch, .exactMatch, .equal, .typeSubset, .valueSubset]

def name : Shorthand → String
  | .typeMatch => "assert_type_match"
  | .exactMatch => "assert_exact_match"
  | .equal => "assert_equal"
  | .typeSubset => "assert_type_subset"
  | .valueSubset => "assert_value_subset"

def ofName? (name : String) : Option Shorthand := all.find? (·.name = name)

/-- What a deprecated shorthand advises instead. -/
def warning? : Shorthand → Option String
  | .equal =>
    some ("assert_equal is deprecated, use " ++
      "assert_json(expected, actual).equal_count(scope=Scope.SUBTREE).validate()")
  | .typeSubset =>
    some ("assert_type_subset is deprecated, use " ++
      "assert_json(expected, actual).type_match(scope=Scope.SUBTREE).validate()")
  | .valueSubset =>
    some "assert_value_subset is deprecated, use assert_json(expected, actual).validate()"
  | _ => none

/-- The directives that a shorthand gives at the root. -/
def directives : Shorthand → List Directive
  | .typeMatch => [.scoped .typeMatch .subtree]
  | .exactMatch => []
  | .equal => [.scoped .equalCount .subtree]
  | .typeSubset => [.scoped .typeMatch .subtree]
  | .valueSubset => []

/-- The options that a shorthand sets. -/
def options (s : Shorthand) : Node :=
  s.directives.foldl (fun n d => n.apply d.setting d.scope) {}

/-- The comparison that a shorthand makes of two canonical values. -/
def compare (s : Shorthand) (expected actual : Value) : Except ShorthandError Unit :=
  let a : Assertion := { expected, actual, options := s.options }
  match a.validate with
  | .ok r => if r.isValid then .ok () else .error (.invalid r)
  | .error e => .error (.obstacle e)

/-- The failure for one side alone, which quotes both sides as they have been given. -/
def oneSided (expectedMissing : Bool) (expected actual : Value) : ShorthandError :=
  if expected.holdsLongInteger || actual.holdsLongInteger then .obstacle .longInteger
  else .oneSided expectedMissing expected actual

/-- Runs a shorthand on raw inputs. -/
def run (s : Shorthand) (expected actual : Value) : Except ShorthandError Unit :=
  match Assertion.ofInputs expected actual {} with
  | .error e => .error (.conversion e)
  | .ok a =>
    match s, a.expected.isMissing, a.actual.isMissing with
    | .equal, true, true => .ok ()
    | .equal, true, false => .error (oneSided true expected actual)
    | .equal, false, true => .error (oneSided false expected actual)
    | _, _, _ => s.compare a.expected a.actual

end Shorthand

namespace ShorthandError

def message : ShorthandError → String
  | .conversion e => e.message
  | .invalid r => r.failureMessage
  | .oneSided expectedMissing expected actual =>
    let (missing, present) :=
      if expectedMissing then ("Expected", "Actual") else ("Actual", "Expected")
    s!"{missing} is None and {present} is not.\nExpected: " ++ expected.literal ++
      "\nActual: " ++ actual.literal
  | .obstacle e => e.message

/-- The number of failures that the error stands for. -/
def failureCount : ShorthandError → Nat
  | .invalid r => r.failures.length
  | _ => 0

end ShorthandError

end JsonExpect
