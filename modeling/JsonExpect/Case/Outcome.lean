import JsonExpect.Case.Basic
import JsonExpect.FileTree.Search

/-!
# Outcomes of cases

`Case.run` replays the shared rules on the comparison of a case, then the rules of the case, and
compares. A case passes when the comparison comes out as the case says it should; one that cannot be
run fails, whatever it says, and its `CaseOutcome` tells why. Only a path that cannot be read, a
failure or an error that cannot be written down and what the library of selectors raises keep a case
from having an outcome.
-/

namespace JsonExpect

/-- What stops a run. -/
inductive RunError where
  | path (e : PathError)
  /-- A failure cannot be written down. -/
  | obstacle (e : Obstacle)
  /-- What is wrong with a case or with its rules cannot be told, as an integer in too many digits
  would have to be shown. -/
  | untold
  /-- The library of selectors raises something else than that it refuses a text. -/
  | selector (message : String)
  | search (e : SearchFault)
  /-- A line cannot be shown. -/
  | unshown (line : String)

def RunError.message : RunError → String
  | .path e => e.message
  | .obstacle e => e.message
  | .untold => longIntegerMessage
  | .selector message => message
  | .search e => e.message
  | .unshown line => "cannot show: " ++ line

/-- How a case came out. -/
structure CaseOutcome where
  name : Value
  casePath : String
  passed : Bool
  expectPass : Bool := true
  /-- The result of the comparison, as a document. -/
  validation : Option Value := none
  /-- Why there is no such result. -/
  error : Option String := none
deriving Inhabited

/-- The document of an outcome; what it does not have is left out. -/
def CaseOutcome.document (o : CaseOutcome) : Value :=
  .ofFields ([("name", o.name), ("case_path", .string o.casePath), ("passed", .bool o.passed),
      ("expect_pass", .bool o.expectPass)] ++
    (o.validation.map fun v => ("validation", v)).toList ++
    (o.error.map fun e => ("error", .string e)).toList)

namespace Case

/-- The comparison of a case under the shared rules and then its own, if these can be read. -/
def run (policy : SnapshotPolicy) (shared : List Rule) (c : Case) :
    Except RunError (Except RuleError Result) :=
  match Rule.applyAll shared { expected := c.expected, actual := c.actual, policy } with
  | .error e => .error (.path e)
  | .ok a =>
    match Rule.parseAll c.rules with
    | .error e => .ok (.error e)
    | .ok rules =>
      match Rule.applyAll rules a with
      | .error e => .error (.path e)
      | .ok a =>
        match a.validate with
        | .error e => .error (.obstacle e)
        | .ok r => .ok (.ok r)

/-- The outcome of the case that the members of an object write, under a name and the path of its
file. -/
def outcome (lib : SelectorLibrary) (policy : SnapshotPolicy) (shared : List Rule)
    (members : List (Key × Value)) (name : Value) (casePath : String) :
    Except RunError CaseOutcome :=
  let expectPass := match parseExpectPass members with
    | .ok b => b
    | .error _ => true
  let failed (e : CaseError) : CaseOutcome :=
    { name, casePath, passed := false, expectPass, error := some e.message }
  match ofMembers lib members with
  | .error message => .error (.selector message)
  | .ok (.error f) => if name.holdsLongInteger then .error .untold else .ok (failed (.fault name f))
  | .ok (.ok c) =>
    match c.run policy shared with
    | .error e => .error e
    | .ok (.error e) => if e.isShowable then .ok (failed (.rule e)) else .error .untold
    | .ok (.ok r) => .ok {
        name, casePath, expectPass := c.expectPass
        passed := r.isValid == c.expectPass
        validation := some r.document }

end Case

end JsonExpect
