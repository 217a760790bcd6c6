import JsonExpect.Assertion.Basic

/-!
# Rules

A `Rule` is a directive with the texts of the paths it applies to. `Rule.parse` reads a rule from
its mapping form and says why it refuses one; `Rule.document` is the mapping form of a rule. Rules
are replayed on an assertion in order.
-/

namespace JsonExpect

/-- A directive at paths. -/
structure Rule where
  directive : Directive
  paths : List String := []
deriving DecidableEq, Repr

/-- Why something is not a rule, or not a list of rules. -/
inductive RuleError where
  | notMapping (given : Value)
  | unknownOption (given : Value)
  | badPaths (option : String)
  | unknownScope (option : String) (given : Value)
  | singleNodeOnly (option : String)
  | badCount (option : String)
  | strayCount (option : String)
  | notList (given : Value)

namespace Rule

/-- The names of the options that a rule may name. -/
def optionNames : List String :=
  ScopedDirective.all.map (·.name) ++ ["key_must_be_absent", "element_count"]

end Rule

namespace RuleError

/-- What is refused. -/
def subject : RuleError → String
  | .notMapping given => given.display
  | .unknownOption given => given.display
  | .badPaths option => option
  | .unknownScope option _ => option
  | .singleNodeOnly option => option
  | .badCount option => option
  | .strayCount option => option
  | .notList given => given.display

/-- Why it is refused. -/
def detail : RuleError → String
  | .notMapping _ => "rule must be a mapping"
  | .unknownOption _ => "unknown option, expected one of: " ++ ", ".intercalate Rule.optionNames
  | .badPaths _ => "paths must be a string or a list of strings"
  | .unknownScope _ given =>
    "unknown scope '" ++ given.display ++ "', expected single_node or subtree"
  | .singleNodeOnly _ => "option only applies to a single node"
  | .badCount _ => "count must be a non-negative integer"
  | .strayCount _ => "count is only valid for element_count"
  | .notList _ => "rules must be a list"

def message (e : RuleError) : String := "Invalid rule '" ++ e.subject ++ "': " ++ e.detail

/-- The value that the message shows, if it shows one. -/
def shown? : RuleError → Option Value
  | .notMapping given => some given
  | .unknownOption given => some given
  | .unknownScope _ given => some given
  | .notList given => some given
  | _ => none

/-- Whether no integer is too long for the message. -/
def isShowable (e : RuleError) : Bool := !e.shown?.any Value.holdsLongInteger

end RuleError

namespace Rule

/-- The texts that values are, if all of them are texts. -/
def texts? : List Value → Option (List String)
  | [] => some []
  | .string s :: vs => (texts? vs).map (s :: ·)
  | _ :: _ => none

/-- The paths of a rule: a text, a list of texts, or nothing given. -/
def parsePaths (option : String) (v : Value) : Except RuleError (List String) :=
  if !v.isGiven then .ok []
  else match v with
    | .string s => .ok [s]
    | .array items =>
      match texts? items with
      | some ps => .ok ps
      | none => .error (.badPaths option)
    | _ => .error (.badPaths option)

/-- The scope of a rule, the single node where it names none. -/
def parseScope (option : String) (v? : Option Value) : Except RuleError Scope :=
  match v? with
  | none => .ok .singleNode
  | some v =>
    match Scope.ofValue? v with
    | .ok scope => .ok scope
    | .error _ => .error (.unknownScope option v)

/-- The directive of an option name with a scope and a raw count. -/
def parseDirective (option : String) (scope : Scope) (count : Value) :
    Except RuleError Directive :=
  match ScopedDirective.ofName? option with
  | some d => if count.isNull then .ok (.scoped d scope) else .error (.strayCount option)
  | none =>
    if scope = .subtree then .error (.singleNodeOnly option)
    else if option = "element_count" then
      match count with
      | .int n => if n < 0 then .error (.badCount option) else .ok (.elementCount n)
      | _ => .error (.badCount option)
    else if count.isNull then .ok .keyMustBeAbsent
    else .error (.strayCount option)

/-- The rule of a mapping. -/
def parse : Value → Except RuleError Rule
  | .object members => do
    let field (name : String) := findMember? (.string name) members
    match (field "option").getD .null with
    | .string option =>
      if option ∈ optionNames then
        let paths ← parsePaths option ((field "paths").getD .null)
        let scope ← parseScope option (field "scope")
        let directive ← parseDirective option scope ((field "count").getD .null)
        return ⟨directive, paths⟩
      else throw (.unknownOption (.string option))
    | v => throw (.unknownOption v)
  | v => throw (.notMapping v)

/-- The rules of values in turn. -/
def parseList : List Value → Except RuleError (List Rule)
  | [] => .ok []
  | v :: vs => do
    let r ← parse v
    let rs ← parseList vs
    return r :: rs

/-- The rules of a document: a list of rules, or a mapping that holds one. A null, and nothing given
in the mapping, are an empty list. -/
def parseAll (v : Value) : Except RuleError (List Rule) :=
  let ofValue (v : Value) : Except RuleError (List Rule) :=
    match v with
    | .array items => parseList items
    | v => .error (.notList v)
  match v with
  | .null => .ok []
  | .object members =>
    let rules := (findMember? (.string "rules") members).getD .null
    if rules.isGiven then ofValue rules else .ok []
  | v => ofValue v

/-- The mapping form of a rule. -/
def document (r : Rule) : Value :=
  let fields : List (String × Value) :=
    [("option", .string r.directive.name), ("paths", .array (r.paths.map .string))]
  .ofFields (fields ++ match r.directive with
    | .scoped _ scope => [("scope", .string scope.name)]
    | .keyMustBeAbsent => []
    | .elementCount n => [("count", .int n)])

/-- Replays a rule on an assertion. -/
def apply (r : Rule) (a : Assertion) : Except PathError Assertion :=
  a.direct r.directive (r.paths.map fun p => .value (.string p))

/-- Replays rules in order. -/
def applyAll : List Rule → Assertion → Except PathError Assertion
  | [], a => .ok a
  | r :: rs, a =>
    match r.apply a with
    | .ok a => applyAll rs a
    | .error e => .error e

end Rule

end JsonExpect
