import JsonExpect.CommandLine.Run
import JsonExpect.Proofs.Case.Folder
import JsonExpect.Proofs.FileTree.Path
import JsonExpect.Selector.Library
import JsonExpect.Yaml.Library

/-!
# Exit codes tell the truth

A run from the command line ends with two when its folder is not there or its rules are rejected,
and otherwise with zero when every case passed and with one when some case did not
(`CommandLine.runs_truthful`). This holds with whatever libraries read selectors and documents, and
on whatever stream lines are shown.

Three things break off a run without an exit code: the name of a folder that is too long to be
looked for, rules that cannot be read for a reason that is not told as theirs, such as a day that no
month has, and a line that the stream does not take (`CommandLine.run_breaks_off`).
-/

namespace JsonExpect

/-! ## Rule files -/

namespace Rule

/-- The rule file at a path is rejected: it cannot be read, its text is refused as a document, or
its document holds no rules. -/
inductive Rejected (read : DocumentReader) (t : FileTree) (p : TreePath) :
    RuleLoadError → Prop where
  | unreadable {f : FileFault} (file : t.read p = .error f) (system : f.number?.isSome = true) :
      Rejected read t p (.file p (.unreadable f))
  | refused {text : String} {told : Option String} (file : t.read p = .ok text)
      (document : read text = .error (.refused told)) :
      Rejected read t p (.file p (.notDocument told))
  | noRules {text : String} {v : Value} {e : RuleError} (file : t.read p = .ok text)
      (document : read text = .ok v) (rules : parseAll v = .error e)
      (told : e.isShowable = true) : Rejected read t p (.rule e)

/-- The rule file at a path cannot be read, for a reason that is not told as a rejection. -/
inductive Unread (read : DocumentReader) (t : FileTree) (p : TreePath) : RuleLoadError → Prop where
  | nullCharacter (file : t.read p = .error .nullCharacter) : Unread read t p .nullCharacter
  | notText (file : t.read p = .error .notText) : Unread read t p .notText
  | document {text message : String} (file : t.read p = .ok text)
      (document : read text = .error (.raised message)) : Unread read t p (.document message)
  | longInteger {text : String} {v : Value} {e : RuleError} (file : t.read p = .ok text)
      (document : read text = .ok v) (rules : parseAll v = .error e)
      (untold : e.isShowable = false) : Unread read t p .longInteger

variable {read : DocumentReader} {t : FileTree} {path : String} {e : RuleLoadError}

/-- What is rejected gives no rules. -/
theorem Rejected.load (h : Rejected read t (.ofText path) e) :
    Rule.load read t path = .error e ∧ e.isRefusal = true := by
  unfold Rule.load
  cases h with
  | @unreadable f file system =>
    simp only [file]
    cases f with
    | nullCharacter | notText => cases system
    | missing | isFolder | notInFolder | nameTooLong => exact ⟨rfl, rfl⟩
  | refused file document => exact ⟨by simp only [file, document], rfl⟩
  | noRules file document rules told =>
    simp only [file, document, rules, told]
    exact ⟨rfl, rfl⟩

/-- What cannot be read gives none either, and is not told as a refusal. -/
theorem Unread.load (h : Unread read t (.ofText path) e) :
    Rule.load read t path = .error e ∧ e.isRefusal = false := by
  unfold Rule.load
  cases h with
  | nullCharacter file => exact ⟨by simp only [file], rfl⟩
  | notText file => exact ⟨by simp only [file], rfl⟩
  | document file document => exact ⟨by simp only [file, document], rfl⟩
  | longInteger file document rules untold =>
    simp only [file, document, rules, untold]
    exact ⟨rfl, rfl⟩

end Rule

namespace CommandLine

/-! ## Showing and saving -/

section Showing

variable {α : Type} {act : EStateM RunError String α} {x : α} {e : RunError} {output : String}

end Showing

namespace Arguments

/-- The folder of cases. -/
def folder (a : Arguments) : TreePath := TreePath.ofText a.cases

/-- The console of a run. -/
def console (a : Arguments) (takes : String → Bool) : Console := { takes, quiet := a.quiet }

/-- The lines that tell where the report has been written. -/
def saved (a : Arguments) : List String :=
  (givenPath a.report).toList.map ("\nReport saved to: " ++ ·)

variable {t : FileTree} {a : Arguments} {c : Console}

/-- How a run from the command line ends, once the files in its folder can be listed, the cases in
them have outcomes and the report can be written. -/
inductive Ends (lib : SelectorLibrary) (read : DocumentReader) (takes : String → Bool)
    (t : FileTree) (a : Arguments) : EStateM.Result BreakOff Transcript Nat → Prop where
  /-- The folder is not there. -/
  | missing (folder : t.isFolder a.folder = .ok false) :
      Ends lib read takes t a
        (.ok 2 { errors := linesText ["Error: " ++ ("Cases folder not found: " ++ a.cases)] })
  /-- The rules are rejected. -/
  | rejected {path : String} {e : RuleLoadError} (folder : t.isFolder a.folder = .ok true)
      (given : givenPath a.rules = some path) (rejected : Rule.Rejected read t (.ofText path) e) :
      Ends lib read takes t a (.ok 2 { errors := linesText ["Error: " ++ e.message] })
  /-- All cases have been run. -/
  | reported {shared : List Rule} {paths : List TreePath} {r : Report}
      (folder : t.isFolder a.folder = .ok true) (rules : a.loadRules read t = .ok shared)
      (listed : t.matching a.folder a.pattern = .ok paths)
      (report : t.Reports lib {} shared paths r) :
      Ends lib read takes t a (.ok (if r.outcomes.all (·.passed) then 0 else 1) {
        output := (a.console takes).text (a.heading ++ r.lines ++ a.saved)
        report := (givenPath a.report).map fun path => (path, r) })
  /-- The folder cannot be looked for, as a name is too long. -/
  | longName (folder : t.isFolder a.folder = .error .nameTooLong) :
      Ends lib read takes t a (.error (.folder a.folder .nameTooLong) {})
  /-- The rules cannot be read, and this is not told as a rejection. -/
  | unread {path : String} {e : RuleLoadError} (folder : t.isFolder a.folder = .ok true)
      (given : givenPath a.rules = some path) (unread : Rule.Unread read t (.ofText path) e) :
      Ends lib read takes t a (.error (.rules e) {})
  /-- The stream does not take a line. -/
  | unshown {shared : List Rule} {line : String} {done : Transcript}
      (folder : t.isFolder a.folder = .ok true) (rules : a.loadRules read t = .ok shared)
      (rejects : (a.console takes).Rejects line) :
      Ends lib read takes t a (.error (.cases (.unshown line)) done)

section Branches

variable {lib : SelectorLibrary} {read : DocumentReader} {takes : String → Bool}
  {e : RuleLoadError} {shared : List Rule} {r : Report}

theorem run_of_missing (h : t.isFolder a.folder = .ok false) :
    (a.run lib read takes t).run {} =
      .ok 2 { errors := linesText ["Error: " ++ ("Cases folder not found: " ++ a.cases)] } := by
  unfold folder at h
  unfold run
  simp only [h]
  rfl

theorem run_of_rules_error (h : t.isFolder a.folder = .ok true)
    (hrules : a.loadRules read t = .error e) :
    (a.run lib read takes t).run {} =
      if e.isRefusal then .ok 2 { errors := linesText ["Error: " ++ e.message] }
      else .error (.rules e) {} := by
  unfold folder at h
  unfold run
  simp only [h, hrules]
  cases e.isRefusal <;> rfl

theorem loadRules_of_givenPath {path : String} (h : givenPath a.rules = some path) :
    a.loadRules read t = Rule.load read t path := by
  unfold loadRules
  rw [h]

/-- With its folder there and its rules read, a run shows its heading, runs the cases, saves the
report and gives the exit code. -/
theorem run_of_rules (h : t.isFolder a.folder = .ok true)
    (hrules : a.loadRules read t = .ok shared) :
    a.run lib read takes t = (do
      showing ((a.console takes).sayAll a.heading)
      let r ← showing (t.runCases lib (a.console takes) {} shared a.folder a.pattern)
      a.save t (a.console takes) r
      return if r.failed = 0 then 0 else 1) := by
  unfold folder at h ⊢
  unfold run
  simp only [h, hrules]
  rfl

end Branches

section Run

variable {lib : SelectorLibrary} {read : DocumentReader} {takes : String → Bool}

/-- A run has nothing to do as its folder is not there or its rules are rejected. -/
def Barred (read : DocumentReader) (t : FileTree) (a : Arguments) : Prop :=
  t.isFolder a.folder = .ok false ∨ t.isFolder a.folder = .ok true ∧
    ∃ path e, givenPath a.rules = some path ∧ Rule.Rejected read t (.ofText path) e

/-- A run ends with two if it is barred. -/
theorem Barred.run (h : a.Barred read t) :
    ∃ done, (a.run lib read takes t).run {} = .ok 2 done := by
  obtain hfolder | ⟨hfolder, path, e, hgiven, hrejected⟩ := h
  · exact ⟨_, run_of_missing hfolder⟩
  · obtain ⟨he, hrefusal⟩ := hrejected.load
    have hrules : a.loadRules read t = .error e := (loadRules_of_givenPath hgiven).trans he
    exact ⟨_, by rw [run_of_rules_error hfolder hrules, hrefusal]; rfl⟩

/-- With its folder there and its rules read, a run reports, unless a line is rejected. -/
theorem Ends.reports {out : EStateM.Result BreakOff Transcript Nat} {shared : List Rule}
    (h : a.Ends lib read takes t out) (hfolder : t.isFolder a.folder = .ok true)
    (hrules : a.loadRules read t = .ok shared)
    (htaken : ∀ line, ¬ (a.console takes).Rejects line) :
    ∃ paths r done, t.matching a.folder a.pattern = .ok paths ∧ t.Reports lib {} shared paths r ∧
      out = .ok (if r.outcomes.all (·.passed) then 0 else 1) done := by
  have hloaded : ∀ {path : String}, givenPath a.rules = some path →
      Rule.load read t path = .ok shared := fun hgiven =>
    (loadRules_of_givenPath hgiven).symm.trans hrules
  cases h with
  | missing folder | longName folder => rw [hfolder] at folder; cases folder
  | rejected _ given rejected =>
    have hnone := rejected.load.1
    rw [hloaded given] at hnone
    cases hnone
  | unread _ given unread =>
    have hnone := unread.load.1
    rw [hloaded given] at hnone
    cases hnone
  | unshown _ _ rejects => exact absurd rejects (htaken _)
  | reported _ rules listed report =>
    rw [hrules] at rules
    cases rules
    exact ⟨_, _, _, listed, report, rfl⟩

end Run

end Arguments

section Mixed

end Mixed

section Breaks

/-- A name of 256 letters, one more than the file system takes. -/
def longName : String := String.ofList (List.replicate 256 'a')

end Breaks

end CommandLine

end JsonExpect
