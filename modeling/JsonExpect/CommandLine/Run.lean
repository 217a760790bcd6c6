import JsonExpect.Case.Folder
import JsonExpect.CommandLine.Arguments
import JsonExpect.Rule.File

/-!
# Runs from the command line

`Arguments.run` does what the command line asks for: it looks for the folder, loads the rules and
runs the cases. It gives the exit code: two when there is nothing to run, one when a case failed,
and zero otherwise. What it shows and which report it writes where goes into a `Transcript`. What
breaks off the run is a `BreakOff`, and then the transcript holds what has been shown and written
before.
-/

namespace JsonExpect.CommandLine

/-- What breaks off a run from the command line. -/
inductive BreakOff where
  /-- The folder of cases cannot even be looked for. -/
  | folder (p : TreePath) (f : FileFault)
  /-- The rules cannot be read, for a reason that is not theirs. -/
  | rules (e : RuleLoadError)
  /-- A case has no outcome, or a line cannot be shown. -/
  | cases (e : RunError)
  /-- The report cannot be written. -/
  | report (path : String) (f : FileFault)

def BreakOff.message : BreakOff → String
  | .folder p f => f.message p.text
  | .rules e => e.message
  | .cases e => e.message
  | .report path f => f.message path

/-- What a run has shown and written. -/
structure Transcript where
  output : String := ""
  errors : String := ""
  /-- The report, and the path that it is written to. -/
  report : Option (String × Report) := none
deriving Inhabited

/-- The path of an option, none where it is not given or empty. -/
def givenPath (path : Option String) : Option String := path.filter (· ≠ "")

/-- Shows lines, and puts what has been shown into the transcript. -/
def showing (act : EStateM RunError String α) : EStateM BreakOff Transcript α :=
  EStateM.adaptExcept .cases (onPart Transcript.output (fun s output => { s with output }) act)

/-- Ends a run before any case, with a line about the reason. -/
def refuse (reason : String) : EStateM BreakOff Transcript Nat := do
  modify fun s => { s with errors := s.errors ++ linesText ["Error: " ++ reason] }
  return 2

namespace Arguments

/-- The rules that every case starts from. -/
def loadRules (read : DocumentReader) (t : FileTree) (a : Arguments) :
    Except RuleLoadError (List Rule) :=
  match givenPath a.rules with
  | some path => Rule.load read t path
  | none => .ok []

/-- The lines that are shown before the cases are run. -/
def heading (a : Arguments) : List String :=
  ("Cases: " ++ a.cases) :: (givenPath a.rules).toList.map ("Rules: " ++ ·) ++ [""]

/-- Writes the report, if it is asked for. -/
def save (t : FileTree) (console : Console) (a : Arguments) (r : Report) :
    EStateM BreakOff Transcript Unit := do
  if let some path := givenPath a.report then
    if let some f := t.writeFault? path then throw (.report path f)
    modify fun s => { s with report := some (path, r) }
    showing (console.say ("\nReport saved to: " ++ path))

/-- Runs the cases of a folder and gives the exit code. -/
def run (lib : SelectorLibrary) (read : DocumentReader) (takes : String → Bool) (t : FileTree)
    (a : Arguments) : EStateM BreakOff Transcript Nat := do
  let folder := TreePath.ofText a.cases
  let console : Console := { takes, quiet := a.quiet }
  match t.isFolder folder with
  | .error f => throw (.folder folder f)
  | .ok false => refuse ("Cases folder not found: " ++ a.cases)
  | .ok true =>
    match a.loadRules read t with
    | .error e => if e.isRefusal then refuse e.message else throw (.rules e)
    | .ok shared =>
      showing (console.sayAll a.heading)
      let r ← showing (t.runCases lib console {} shared folder a.pattern)
      a.save t console r
      return if r.failed = 0 then 0 else 1

end Arguments

end JsonExpect.CommandLine
