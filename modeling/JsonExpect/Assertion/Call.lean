import JsonExpect.Assertion.Basic

/-!
# Option calls

An `OptionCall` is a call that sets an option, with its scope or its count as a test gives it.
`perform` makes the call in place, at the paths of an argument list: it reads the scope or the
count, then all of the paths, and after that it makes one setting after the other, up to a path that
cannot be followed.
-/

namespace JsonExpect

/-- A call that sets an option. A scope that is not given is the single node. -/
inductive OptionCall where
  | withScope (d : ScopedDirective) (scope : Option Value)
  | keyMustBeAbsent
  | elementCount (count : Value)

/-- Why a call is refused. -/
inductive CallError where
  | scope (e : NameError)
  | count (given : Value)
  | path (e : PathError)

def CallError.message : CallError → String
  | .scope e => e.message
  | .count given => s!"element_count expects an int, got {given.className}"
  | .path e => e.message

/-- The directive that a call gives. -/
def OptionCall.directive? : OptionCall → Except CallError Directive
  | .withScope d none => .ok (.scoped d .singleNode)
  | .withScope d (some given) =>
    match Scope.ofValue? given with
    | .ok scope => .ok (.scoped d scope)
    | .error e => .error (.scope e)
  | .keyMustBeAbsent => .ok .keyMustBeAbsent
  | .elementCount count =>
    match Directive.elementCount? count with
    | some d => .ok d
    | none => .error (.count count)

namespace Assertion

/-- Makes a call at the paths of an argument list. -/
def perform (call : OptionCall) (paths : List PathArgument) :
    EStateM CallError Assertion Unit := do
  let d ← ofExcept call.directive?
  EStateM.adaptExcept .path (follow d paths)

end Assertion

end JsonExpect
