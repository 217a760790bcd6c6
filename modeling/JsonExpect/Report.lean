import JsonExpect.Binary64.FixedPlaces
import JsonExpect.Case.Outcome
import JsonExpect.Json.Writer

/-!
# Reports

A `Report` holds the outcomes of a run in order, and counts them as they are added. Its document has
a summary and the documents of all outcomes; the lines that sum it up say how many cases passed and
why each of the others failed.
-/

namespace JsonExpect

/-- The numbers that are kept while outcomes are added. -/
structure Counts where
  total : Nat := 0
  passed : Nat := 0
  failed : Nat := 0
deriving DecidableEq, Repr, Inhabited

/-- The numbers with an outcome more. -/
def Counts.add (c : Counts) (o : CaseOutcome) : Counts :=
  if o.passed then { c with total := c.total + 1, passed := c.passed + 1 }
  else { c with total := c.total + 1, failed := c.failed + 1 }

/-- The outcomes of a run. -/
structure Report where
  outcomes : List CaseOutcome := []
deriving Inhabited

/-- The share of passed cases, as a double. -/
def passShare (passed total : Int) : Binary64 :=
  .ofRatio (decide (passed < 0)) passed.natAbs total.natAbs

/-- The share of passed cases as a percentage with one place. The quotient is a double, and so is
the hundredfold of it. -/
def passRate (passed total : Int) : String :=
  if total ≤ 0 then "0.0%" else ((passShare passed total).timesNat 100).fixed 1 ++ "%"

/-- A share of passed cases that lies beyond the doubles. -/
inductive RateError where
  | tooLarge
deriving DecidableEq, Repr

def RateError.message : RateError → String
  | .tooLarge => "integer division result too large for a float"

/-- The percentage of any two integers, if their quotient is a double. -/
def passRateOf (passed total : Int) : Except RateError String :=
  if 0 < total && (passShare passed total).isInfinite then .error .tooLarge
  else .ok (JsonExpect.passRate passed total)

/-- Why a document gives no reason for a failure although it is no result. -/
inductive ReasonFault where
  /-- A value of a class stands where an object should. -/
  | notObject (className : String)
  /-- A value of a class stands where the failures should. -/
  | notList (className : String)
  /-- The failures are an object. -/
  | noFirst
  | noMessage
deriving DecidableEq, Repr

def ReasonFault.message : ReasonFault → String
  | .notObject className => "'" ++ className ++ "' object has no attribute 'get'"
  | .notList className => "'" ++ className ++ "' object is not subscriptable"
  | .noFirst => "0"
  | .noMessage => "'message'"

/-- What is said of a case that failed without a failure. -/
def noFailure : String := "validation passed but a failure was expected"

/-- A failure that is held as a document, where it is and what it is. -/
def failureReason (failure : Value) : Except ReasonFault String :=
  match failure with
  | .object _ =>
    let keyPath := failure.getD "key_path"
    match failure.get? "message" with
    | some message =>
      .ok ((if keyPath.isGiven then keyPath.display else "<root>") ++ ": " ++ message.display)
    | none => .error .noMessage
  | v => .error (.notObject v.className)

/-- Why a validation that is held as a document counts against its case: its first failure, or that
it has none. -/
def validationReason (validation : Value) : Except ReasonFault String :=
  if !validation.isGiven then .ok noFailure
  else
    match validation with
    | .object _ =>
      let failures := validation.getD "failures"
      if !failures.isGiven then .ok noFailure
      else
        match failures with
        | .array (failure :: _) => failureReason failure
        | .string _ => .error (.notObject failures.className)
        | .object _ => .error .noFirst
        | v => .error (.notList v.className)
    | v => .error (.notObject v.className)

/-- Why a case failed, if its validation is the document of a result. -/
def CaseOutcome.reason? (o : CaseOutcome) : Except ReasonFault String :=
  match o.error with
  | some e => if e = "" then validationReason (o.validation.getD .missing) else .ok e
  | none => validationReason (o.validation.getD .missing)

/-- Why a case failed. -/
def CaseOutcome.reason (o : CaseOutcome) : String :=
  match o.reason? with
  | .ok reason => reason
  | .error _ => noFailure

/-- The line that is shown when a case is done. -/
def CaseOutcome.line (o : CaseOutcome) : String :=
  (if o.passed then "PASS: " else "FAIL: ") ++ o.name.display

namespace Report

/-- The report with an outcome more. -/
def add (r : Report) (o : CaseOutcome) : Report := ⟨r.outcomes ++ [o]⟩

/-- The numbers once all outcomes have been added, one after the other. -/
def counts (r : Report) : Counts := r.outcomes.foldl Counts.add {}

def total (r : Report) : Nat := r.counts.total

def passed (r : Report) : Nat := r.counts.passed

def failed (r : Report) : Nat := r.counts.failed

/-- What is wrong with the first failed case whose validation is no document of a result. -/
def fault? (r : Report) : Option ReasonFault :=
  (r.outcomes.filter (!·.passed)).findSome? fun o =>
    match o.reason? with
    | .ok _ => none
    | .error e => some e

def passRate (r : Report) : String := JsonExpect.passRate r.passed r.total

/-- The fields of the document of a report. -/
def fields (r : Report) : List (String × Value) :=
  [("summary", .ofFields [("total_cases", .int r.total), ("passed", .int r.passed),
      ("failed", .int r.failed), ("pass_rate", .string r.passRate)]),
    ("cases", .array (r.outcomes.map (·.document)))]

def document (r : Report) : Value := .ofFields r.fields

/-- The document of a report that also says when it was made. -/
def stampedDocument (timestamp : String) (r : Report) : Value :=
  .ofFields (("timestamp", .string timestamp) :: r.fields)

/-- The text of a report file: the stamped document over lines, in ASCII. -/
def fileText (timestamp : String) (r : Report) : String :=
  Json.asciiText (((r.stampedDocument timestamp).indentedText? "").getD "")

/-- The lines that sum a report up, below an empty one. -/
def summary (r : Report) : List String :=
  let counted := "\nCase Results: " ++ toString r.passed ++ "/" ++ toString r.total ++
    " passed (" ++ r.passRate ++ ")"
  let failures := r.outcomes.filter (!·.passed)
  counted :: if r.failed = 0 then []
    else ("  Failed: " ++ toString r.failed) ::
      failures.map fun o => "    " ++ o.name.display ++ ": " ++ o.reason

end Report

end JsonExpect
