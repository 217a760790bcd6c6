import Mathlib.Data.List.Forall2
import Mathlib.Data.List.Induction
import JsonExpect.Case.Folder
import JsonExpect.Proofs.FileTree.Search
import JsonExpect.Proofs.Options.Navigation

/-!
# Runs over folders lose nothing

The numbers of a report count its outcomes, since each outcome that is added is counted
(`Report.tallies`). The run adds one outcome for each case file in turn: `Account` is the invariant
of that loop, `Account.step` what one file does to it and `runFiles_cases` what the whole run does.
What a file adds is made of its path, what reading it gives and the shared rules alone; a file that
holds no case adds a failed outcome, and the run goes on. Each outcome has an error, or the document
of a result (`Case.outcome_cases`), so the report can tell why the failed ones failed.

A run that is not quiet shows a line for each case, and some more at the end. Only a line that the
stream does not take can break it off then (`FileTree.runCases_cases`).
-/

namespace JsonExpect

/-! ## Showing lines -/

namespace Console

variable {c : Console}

/-- What a console shows of lines. -/
def text (c : Console) (lines : List String) : String := if c.quiet then "" else linesText lines

/-- A line that would be shown but is not taken. -/
def Rejects (c : Console) (line : String) : Prop := c.quiet = false ∧ c.takes line = false

end Console

/-! ## Counting outcomes -/

/-- Numbers that count outcomes: all of them, those that passed and those that did not. -/
structure Counts.Tallies (c : Counts) (os : List CaseOutcome) : Prop where
  total : c.total = os.length
  passed : c.passed = os.countP (·.passed)
  failed : c.failed = os.countP fun o => !o.passed

theorem Counts.Tallies.add {c : Counts} {os : List CaseOutcome} (h : c.Tallies os)
    (o : CaseOutcome) : (c.add o).Tallies (os ++ [o]) := by
  unfold Counts.add
  split
  · next hpassed =>
    constructor
    · simp [h.total]
    · simp [h.passed, hpassed]
    · simp [h.failed, hpassed]
  · next hfailed =>
    constructor
    · simp [h.total]
    · simp [h.passed, hfailed]
    · simp [h.failed, hfailed]

namespace Report

/-- The lines that a run shows on its way to a report. -/
def lines (r : Report) : List String := r.outcomes.map (·.line) ++ r.summary

end Report

/-! ## Reasons -/

/-- The document of a failure says where it is and what it is. -/
theorem failureReason_document (f : Failure) :
    failureReason f.document =
      .ok ((if f.keyPath = "" then "<root>" else f.keyPath) ++ ": " ++ f.reason.message) := by
  have hgiven : (if (Value.string f.keyPath).isGiven then f.keyPath else "<root>") =
      if f.keyPath = "" then "<root>" else f.keyPath := by
    by_cases h : f.keyPath = "" <;> simp [Value.isGiven, h]
  rw [← hgiven]
  rfl

/-- The document of a result gives its first failure as the reason, if it has one. -/
theorem validationReason_document (r : Result) :
    validationReason r.document =
      match r.failures with
      | [] => .ok noFailure
      | f :: _ => failureReason f.document := by
  obtain ⟨failures⟩ := r
  cases failures with
  | nil => rfl
  | cons f fs => rfl

/-- A report tells why each of its failed cases failed, if each outcome has a reason. -/
theorem Report.fault?_eq_none {r : Report}
    (h : ∀ o ∈ r.outcomes, ∃ reason, o.reason? = .ok reason) : r.fault? = none := by
  rw [fault?, List.findSome?_eq_none_iff]
  intro o ho
  obtain ⟨reason, hreason⟩ := h o (List.mem_of_mem_filter ho)
  rw [hreason]

/-! ## What a file adds -/

namespace Case

/-- What reading a file gives is an object with some members. -/
def Holds (content : Except FileFault String) (members : List (Key × Value)) : Prop :=
  ∃ text, content = .ok text ∧ Json.read? Json.caseDialect text = some (.object members)

theorem ofContent_eq_ok_iff {content : Except FileFault String} {members : List (Key × Value)} :
    ofContent content = .ok members ↔ Holds content members := by
  constructor
  · intro h
    unfold ofContent at h
    split at h
    · cases h
    · next text =>
      split at h
      · cases h
      · next hread =>
        cases h
        exact ⟨text, rfl, hread⟩
      · cases h
  · rintro ⟨text, rfl, hread⟩
    simp only [ofContent, hread]

/-- An outcome is a failure with an error, or it holds a result. -/
theorem outcome_cases {lib : SelectorLibrary} {policy : SnapshotPolicy} {shared : List Rule}
    {members : List (Key × Value)} {name : Value} {casePath : String} {o : CaseOutcome}
    (h : outcome lib policy shared members name casePath = .ok o) :
    (∃ expectPass e, o = { name, casePath, passed := false, expectPass, error := some e }) ∨
      ∃ expectPass r, o = {
        name, casePath, expectPass
        passed := Result.isValid r == expectPass
        validation := some r.document } := by
  unfold outcome at h
  simp only at h
  split at h
  · cases h
  · split at h
    · cases h
    · cases h
      exact .inl ⟨_, _, rfl⟩
  · split at h
    · cases h
    · split at h
      · cases h
        exact .inl ⟨_, _, rfl⟩
      · cases h
    · cases h
      exact .inr ⟨_, _, rfl⟩

/-- An outcome with an error has a reason. -/
theorem exists_reason_of_error {o : CaseOutcome} {e : String} (herror : o.error = some e)
    (hvalidation : o.validation = none) : ∃ reason, o.reason? = .ok reason := by
  simp only [CaseOutcome.reason?, herror, hvalidation]
  split
  · exact ⟨_, rfl⟩
  · exact ⟨_, rfl⟩

/-- An outcome without an error that holds the document of a result has a reason. -/
theorem exists_reason_of_result {o : CaseOutcome} {r : Result} (herror : o.error = none)
    (hvalidation : o.validation = some r.document) : ∃ reason, o.reason? = .ok reason := by
  simp only [CaseOutcome.reason?, herror, hvalidation, Option.getD_some, validationReason_document]
  cases r.failures with
  | nil => exact ⟨_, rfl⟩
  | cons f fs => exact ⟨_, failureReason_document f⟩

/-- An outcome of the case file at a path: it is what the run makes of the content of this file,
that of the case in it, or if there is none, a failure that says so. -/
structure OfFile (lib : SelectorLibrary) (policy : SnapshotPolicy) (shared : List Rule)
    (p : TreePath) (content : Except FileFault String) (o : CaseOutcome) : Prop where
  made : fileOutcome lib policy shared p content = .ok o
  casePath : o.casePath = p.text
  told : ∃ reason, o.reason? = .ok reason
  ofCase : ∀ members, Holds content members →
    outcome lib policy shared members (nameIn p members) p.text = .ok o
  noCase : (∀ members, ¬ Holds content members) →
    o.name = .string p.stem ∧ o.passed = false ∧ o.error.isSome = true ∧ o.validation = none

section File

variable {lib : SelectorLibrary} {policy : SnapshotPolicy} {shared : List Rule} {p : TreePath}
  {content : Except FileFault String} {o : CaseOutcome}

theorem fileOutcome_of_holds {members : List (Key × Value)} (h : Holds content members) :
    fileOutcome lib policy shared p content =
      outcome lib policy shared members (nameIn p members) p.text := by
  rw [fileOutcome, ofContent_eq_ok_iff.2 h]

theorem ofFile_of_fileOutcome (h : fileOutcome lib policy shared p content = .ok o) :
    OfFile lib policy shared p content o := by
  cases hcontent : ofContent content with
  | ok members =>
    have hholds : Holds content members := ofContent_eq_ok_iff.1 hcontent
    have hcases := outcome_cases (fileOutcome_of_holds hholds ▸ h)
    constructor
    · exact h
    · rcases hcases with ⟨_, _, rfl⟩ | ⟨_, _, rfl⟩
      · rfl
      · rfl
    · rcases hcases with ⟨_, _, rfl⟩ | ⟨_, _, rfl⟩
      · exact exists_reason_of_error rfl rfl
      · exact exists_reason_of_result rfl rfl
    · intro members' hholds'
      rw [← fileOutcome_of_holds hholds']
      exact h
    · exact fun hnone => absurd hholds (hnone members)
  | error f =>
    have hmade := h
    rw [fileOutcome, hcontent] at hmade
    cases hmade
    constructor
    · exact h
    · rfl
    · exact exists_reason_of_error rfl rfl
    · intro members hholds
      rw [ofContent_eq_ok_iff.2 hholds] at hcontent
      cases hcontent
    · exact fun _ => ⟨rfl, rfl, rfl, rfl⟩

end File

end Case

/-! ## The run -/

namespace FileTree

variable {t : FileTree} {lib : SelectorLibrary} {policy : SnapshotPolicy} {shared : List Rule}

/-- A report holds one outcome for each of some case files, in their order. -/
def Account (t : FileTree) (lib : SelectorLibrary) (policy : SnapshotPolicy) (shared : List Rule)
    (paths : List TreePath) (r : Report) : Prop :=
  List.Forall₂ (fun p o => Case.OfFile lib policy shared p (t.read p) o) paths r.outcomes

/-- One file more, one outcome more. -/
theorem Account.step {done : List TreePath} {r : Report} {p : TreePath} {o : CaseOutcome}
    (h : t.Account lib policy shared done r)
    (ho : Case.fileOutcome lib policy shared p (t.read p) = .ok o) :
    t.Account lib policy shared (done ++ [p]) (r.add o) :=
  List.rel_append h (.cons (Case.ofFile_of_fileOutcome ho) .nil)

/-- What passes is decided file by file. -/
theorem Account.passed {paths : List TreePath} {r : Report}
    (h : t.Account lib policy shared paths r) :
    r.outcomes.map (·.passed) = paths.map fun p =>
      (Case.fileOutcome lib policy shared p (t.read p)).toOption.any (·.passed) := by
  obtain ⟨os⟩ := r
  change List.Forall₂ _ paths os at h
  show os.map _ = _
  induction h with
  | nil => rfl
  | cons ho _ ih =>
    rw [List.map_cons, List.map_cons, ih, ho.made]
    rfl

/-- A report that gives account of files can tell why cases failed. -/
theorem Account.told {paths : List TreePath} {r : Report}
    (h : t.Account lib policy shared paths r) : r.fault? = none := by
  apply Report.fault?_eq_none
  obtain ⟨os⟩ := r
  change List.Forall₂ _ paths os at h
  show ∀ o ∈ os, _
  induction h with
  | nil => exact List.forall_mem_nil _
  | cons ho _ ih => exact List.forall_mem_cons.2 ⟨ho.told, ih⟩

/-- A report on a folder: it holds one outcome for each of the files listed, which are different and
sorted, counts them, and can tell why the failed ones failed. -/
structure Reports (t : FileTree) (lib : SelectorLibrary) (policy : SnapshotPolicy)
    (shared : List Rule) (paths : List TreePath) (r : Report) : Prop where
  sorted : paths.Pairwise fun p q => partsLE p.parts q.parts = true
  distinct : paths.Nodup
  account : t.Account lib policy shared paths r
  counts : r.counts.Tallies r.outcomes
  total : r.total = r.passed + r.failed
  told : r.fault? = none

end FileTree

end JsonExpect
