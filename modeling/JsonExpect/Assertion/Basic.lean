import JsonExpect.Assertion.Directive
import JsonExpect.Path.Parser
import JsonExpect.Validation.Validate
import JsonExpect.Value.Canonical

/-!
# Assertions

An `Assertion` holds the two sides of a comparison and the option tree that directives have built. A
directive reads all its paths before it sets anything, so a call leaves the assertion as it was
where one of them is no path. Without paths, and for every empty list among them, it addresses the
root.
-/

namespace JsonExpect

/-- A path argument: a path, a list of arguments, or another raw value, such as a text. -/
inductive PathArgument where
  | path (p : Path)
  | value (v : Value)
  | group (items : List PathArgument)

/-- The paths that a list stands for: those of its items, or the root where there are none. -/
def pathsOrRoot : Except PathError (List Path) → Except PathError (List Path)
  | .ok ps => .ok (if ps.isEmpty then [.root] else ps)
  | .error e => .error e

mutual

/-- The paths of a raw value: those of its items for a list or a tuple, else the one that it stands
for. -/
def pathsOfValue : Value → Except PathError (List Path)
  | .array items => pathsOrRoot (pathsOfValues items)
  | .tuple items => pathsOrRoot (pathsOfValues items)
  | v =>
    match Path.ofValue? v with
    | .ok p => .ok [p]
    | .error e => .error e

/-- The paths of raw values in turn. -/
def pathsOfValues : List Value → Except PathError (List Path)
  | [] => .ok []
  | v :: rest =>
    match pathsOfValue v with
    | .error e => .error e
    | .ok ps =>
      match pathsOfValues rest with
      | .error e => .error e
      | .ok qs => .ok (ps ++ qs)

end

mutual

/-- The paths of an argument from left to right; an empty list stands for the root. -/
def PathArgument.paths : PathArgument → Except PathError (List Path)
  | .path p => .ok [p]
  | .value v => pathsOfValue v
  | .group items => pathsOrRoot (PathArgument.pathsOfAll items)

/-- The paths of arguments in turn. -/
def PathArgument.pathsOfAll : List PathArgument → Except PathError (List Path)
  | [] => .ok []
  | a :: rest =>
    match PathArgument.paths a with
    | .error e => .error e
    | .ok ps =>
      match PathArgument.pathsOfAll rest with
      | .error e => .error e
      | .ok qs => .ok (ps ++ qs)

end

/-- The two sides of a comparison and the options under which they are compared. -/
structure Assertion where
  expected : Value
  actual : Value
  options : Node := {}
  policy : SnapshotPolicy := {}
deriving Inhabited

namespace Assertion

/-- An assertion on raw inputs, which are brought to canonical form. -/
def ofInputs (expected actual : Value) (policy : SnapshotPolicy) :
    Except ConversionFault Assertion := do
  let expected ← expected.toCanonical
  let actual ← actual.toCanonical
  return { expected, actual, policy }

/-- Makes a setting at each of the paths in turn. -/
def setAll (d : Directive) (paths : List Path) : EStateM PathError Assertion Unit :=
  paths.forM fun p =>
    onPart Assertion.options (fun a n => { a with options := n }) (Node.set d.setting p d.scope)

/-- Makes a directive at the paths of an argument list, all of which are read before the first
setting is made. -/
def follow (d : Directive) (paths : List PathArgument) : EStateM PathError Assertion Unit := do
  setAll d (← ofExcept (PathArgument.group paths).paths)

/-- The assertion after a directive at the paths of an argument list. -/
def direct (a : Assertion) (d : Directive) (paths : List PathArgument) :
    Except PathError Assertion :=
  match (follow d paths).run a with
  | .ok _ b => .ok b
  | .error e _ => .error e

/-- Runs the comparison. An assertion that expects nothing fails as such. -/
def validate (a : Assertion) : Except Obstacle Result :=
  if a.expected.isMissing then .ok ⟨[⟨[], .expectedMissing, none, none⟩]⟩
  else JsonExpect.validate a.policy a.options a.expected a.actual

/-- Whether the comparison passes. -/
def check (a : Assertion) : Except Obstacle Bool :=
  match a.validate with
  | .ok r => .ok r.isValid
  | .error e => .error e

end Assertion

/-- The message of an assertion that has failed. -/
def Result.failureMessage (r : Result) : String :=
  s!"JSON validation failed with {r.failures.length} failure(s):\n\n" ++
    "\n\n---\n\n".intercalate (r.failures.map (·.text))

end JsonExpect
