import JsonExpect.Console
import JsonExpect.FileTree.Search
import JsonExpect.Report

/-!
# Folders of cases

`FileTree.runCases` runs every case file of a folder that fits a pattern, in the order of the names.
A file that cannot be read, or that holds no object, fails and does not stop the run. A case goes by
the name that it gives itself, or else by the stem of its file. A line is shown after each case, and
the lines that sum the report up at the end.
-/

namespace JsonExpect

/-- Case files: the standard and the three constants beyond it, integers of at most 4300 digits. -/
def Json.caseDialect : Json.Dialect := { constants := true, digitLimit := some longestNumeral }

/-- Why a case file gives no case. -/
inductive CaseFileFault where
  | unreadable
  | notObject
deriving DecidableEq, Repr

/-- What is reported of the case file at a path that gives no case. -/
def CaseFileFault.message (p : TreePath) : CaseFileFault → String
  | .unreadable => "Cannot read case file: unreadable"
  | .notObject =>
    "Cannot read case file: " ++ (CaseError.fault (.string p.stem) .notObject).message

namespace Case

/-- The members of the object that a case file holds, by what reading the file gives. -/
def ofContent (content : Except FileFault String) : Except CaseFileFault (List (Key × Value)) :=
  match content with
  | .error _ => .error .unreadable
  | .ok text =>
    match Json.read? Json.caseDialect text with
    | none => .error .unreadable
    | some (.object members) => .ok members
    | some _ => .error .notObject

/-- The name of the case in the file at a path. -/
def nameIn (p : TreePath) (members : List (Key × Value)) : Value :=
  (findMember? (.string "name") members).getD (.string p.stem)

/-- The outcome of the case file at a path, by what reading the file gives. -/
def fileOutcome (lib : SelectorLibrary) (policy : SnapshotPolicy) (shared : List Rule)
    (p : TreePath) (content : Except FileFault String) : Except RunError CaseOutcome :=
  match ofContent content with
  | .error f => .ok {
      name := .string p.stem, casePath := p.text, passed := false, error := some (f.message p) }
  | .ok members => outcome lib policy shared members (nameIn p members) p.text

end Case

namespace FileTree

/-- Runs case files in turn, shows how each came out and adds the outcomes to a report. -/
def runFiles (t : FileTree) (lib : SelectorLibrary) (console : Console) (policy : SnapshotPolicy)
    (shared : List Rule) : Report → List TreePath → EStateM RunError String Report
  | r, [] => return r
  | r, p :: ps => do
    let o ← ofExcept (Case.fileOutcome lib policy shared p (t.read p))
    console.say o.line
    t.runFiles lib console policy shared (r.add o) ps

/-- The report on the case files of a folder that fit a pattern. -/
def runCases (t : FileTree) (lib : SelectorLibrary) (console : Console) (policy : SnapshotPolicy)
    (shared : List Rule) (folder : TreePath) (pattern : Option String) :
    EStateM RunError String Report := do
  let paths ← ofExcept ((t.matching folder pattern).mapError .search)
  let r ← t.runFiles lib console policy shared {} paths
  console.sayAll r.summary
  return r

end FileTree

end JsonExpect
