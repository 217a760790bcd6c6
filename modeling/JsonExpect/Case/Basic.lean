import JsonExpect.Library
import JsonExpect.Rule.Basic

/-!
# Cases

A `Case` is a comparison written down as an object: the expected and the actual document, a selector
that may pick the actual part out of what is given, rules of its own, and whether the comparison is
meant to pass. `Case.ofMembers` reads one, with a library for its selector. The rules are read
later, when those that all cases share have been replayed.
-/

namespace JsonExpect

/-- A comparison as it is written in a case file. -/
structure Case where
  expected : Value
  actual : Value
  /-- The rules of the case, not yet read. -/
  rules : Value
  expectPass : Bool
deriving Inhabited

/-- What is wrong with the object that holds a case. -/
inductive CaseFault where
  | notObject
  | expectPassNotBoolean
  | selectorNotText
  | badSelector (text : String) (told : Option String)
deriving DecidableEq, Repr

def CaseFault.reason : CaseFault → String
  | .notObject => "case file must hold a JSON object"
  | .expectPassNotBoolean => "expect_pass must be a boolean"
  | .selectorNotText => "actual_path must be a string"
  | .badSelector text told => reasonWith ("invalid actual_path '" ++ text ++ "'") told

/-- Why a case has no outcome of its own. -/
inductive CaseError where
  | fault (name : Value) (f : CaseFault)
  | rule (e : RuleError)

def CaseError.message : CaseError → String
  | .fault name f => "Invalid case " ++ name.display ++ ": " ++ f.reason
  | .rule e => e.message

namespace Case

/-- Whether a case is meant to pass, as it says; without a word on that it is. -/
def parseExpectPass (members : List (Key × Value)) : Except CaseFault Bool :=
  match findMember? (.string "expect_pass") members with
  | none => .ok true
  | some (.bool b) => .ok b
  | some _ => .error .expectPassNotBoolean

/-- The actual document of a case: what is given, or the value of the first match of the selector in
it. Where the selector matches nothing it is missing. -/
def parseActual (lib : SelectorLibrary) (members : List (Key × Value)) :
    Except String (Except CaseFault Value) :=
  let actual := (findMember? (.string "actual") members).getD .missing
  let path := (findMember? (.string "actual_path") members).getD .null
  if path.isNull || actual.isMissing then .ok (.ok actual)
  else match path with
    | .string text =>
      match lib.compile text with
      | .error (.refused told) => .ok (.error (.badSelector text told))
      | .error (.raised message) => .error message
      | .ok s =>
        match lib.find s actual with
        | .error message => .error message
        | .ok [] => .ok (.ok .missing)
        | .ok (m :: _) => (lib.value m).map .ok
    | _ => .ok (.error .selectorNotText)

/-- The case that the members of an object write. -/
def ofMembers (lib : SelectorLibrary) (members : List (Key × Value)) :
    Except String (Except CaseFault Case) :=
  match parseExpectPass members with
  | .error f => .ok (.error f)
  | .ok expectPass =>
    match parseActual lib members with
    | .error message => .error message
    | .ok (.error f) => .ok (.error f)
    | .ok (.ok actual) => .ok (.ok {
        expected := (findMember? (.string "expected") members).getD .missing
        actual
        rules := (findMember? (.string "rules") members).getD .null
        expectPass })

end Case

end JsonExpect
