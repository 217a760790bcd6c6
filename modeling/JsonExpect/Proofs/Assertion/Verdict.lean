import JsonExpect.Assertion.Basic
import JsonExpect.Proofs.Validation.Acceptance
import JsonExpect.Proofs.Validation.Constraints

/-!
# Verdicts

The verdict on two documents is what their assertion comes to once some calls have been made. Where
these put no constraint on the actual document, the verdict is whether the comparison accepts
(`Assertion.decides_of_unconstrained`). There is none where the comparison has to write an integer
of too many digits, be it for an element that is tried in vain.

The calls that reach over all of a document leave a bare node: one that has a bundle and nothing
else. All that lies below a bare node follows its bundle (`Node.follows_bare`).
-/

namespace JsonExpect

namespace Node

/-- A node at which nothing is set but the bundle. -/
def bare (b : Bundle) : Node := { defaults := b }

theorem follows_bare (b : Bundle) : (bare b).Follows fun f => (b.get f).getD false :=
  follows_of_bare rfl rfl (fun _ => rfl) fun f _ => flag_of_own_empty rfl f

/-- Where nothing is set below a node, it constrains as much as its own flag and bundle do. -/
theorem unconstrained_of_bare {node : Node} (hc : node.children = []) (ht : node.template = none)
    (hflag : node.flag .keyMustBeAbsent = false)
    (hdefaults : node.defaults.keyMustBeAbsent.getD false = false)
    (hcount : node.elementCount = none) : node.Unconstrained := by
  constructor
  · intro l
    by_cases hl : l = []
    · rw [hl]; exact hflag
    · obtain ⟨ho, hd⟩ := along_bare l hc ht hl
      rw [flag_of_own_empty ho, hd]
      exact hdefaults
  · intro l
    by_cases hl : l = []
    · rw [hl]; exact hcount
    · obtain ⟨ho, -⟩ := along_bare l hc ht hl
      rw [elementCount, ho]

/-- A node is unconstrained when it asks for nothing itself and what each key leads to is. -/
theorem unconstrained_of_below {node : Node} (hflag : node.flag .keyMustBeAbsent = false)
    (hcount : node.elementCount = none) (hbelow : ∀ k, (node.resolveKey k).Unconstrained) :
    node.Unconstrained where
  key l := by
    cases l with
    | nil => exact hflag
    | cons k l => exact (hbelow k).key l
  count l := by
    cases l with
    | nil => exact hcount
    | cons k l => exact (hbelow k).count l

end Node

namespace Assertion

/-- Why there is no verdict: an argument is no path, or a failure cannot be written. -/
inductive VerdictError where
  | path (e : PathError)
  | obstacle (o : Obstacle)

/-- What an assertion comes to after some calls. -/
def verdict (a : Assertion) : List (Directive × List PathArgument) → Except VerdictError Bool
  | [] =>
    match a.check with
    | .ok passes => .ok passes
    | .error o => .error (.obstacle o)
  | (d, paths) :: calls =>
    match a.direct d paths with
    | .ok a => a.verdict calls
    | .error e => .error (.path e)

/-- That an assertion passes after some calls just when a proposition holds. Only an integer of too
many digits on either side keeps it from a verdict. -/
structure Decides (a : Assertion) (calls : List (Directive × List PathArgument)) (P : Prop) :
    Prop where
  verdict : ∀ passes, a.verdict calls = .ok passes → (passes = true ↔ P)
  error : ∀ e, a.verdict calls = .error e →
    e = .obstacle .longInteger ∧
      (a.expected.holdsLongInteger = true ∨ a.actual.holdsLongInteger = true)

variable {a b : Assertion} {calls : List (Directive × List PathArgument)} {P Q : Prop}

theorem Decides.congr (h : a.Decides calls P) (hPQ : P ↔ Q) : a.Decides calls Q where
  verdict passes hpasses := (h.verdict passes hpasses).trans hPQ
  error := h.error

/-- Calls leave an assertion with other options, and these decide. -/
theorem Decides.of_options {options : Node}
    (h : Decides ⟨a.expected, a.actual, options, a.policy⟩ [] P)
    (hcalls : a.verdict calls = Assertion.verdict ⟨a.expected, a.actual, options, a.policy⟩ []) :
    a.Decides calls P where
  verdict passes hpasses := h.verdict passes (hcalls ▸ hpasses)
  error e he := h.error e (hcalls ▸ he)

/-- Without such an integer there is a verdict. -/
theorem Decides.exists_verdict (h : a.Decides calls P)
    (hexpected : a.expected.holdsLongInteger = false)
    (hactual : a.actual.holdsLongInteger = false) :
    ∃ passes, a.verdict calls = .ok passes ∧ (passes = true ↔ P) := by
  cases hverdict : a.verdict calls with
  | ok passes => exact ⟨passes, rfl, h.verdict passes hverdict⟩
  | error e =>
    obtain ⟨-, hlong | hlong⟩ := h.error e hverdict
    · rw [hexpected] at hlong
      cases hlong
    · rw [hactual] at hlong
      cases hlong

theorem validate_of_isDocument (a : Assertion) (hexpected : a.expected.IsDocument) :
    a.validate = JsonExpect.validate a.policy a.options a.expected a.actual := by
  rw [validate, hexpected.isMissing_eq_false, if_neg (by simp)]

/-- Where nothing constrains the actual document, only the comparison finds anything. -/
theorem findings_of_unconstrained {policy : SnapshotPolicy} {node : Node} {expected actual : Value}
    (hn : node.Unconstrained) (hactual : actual.IsDocument ∨ actual = .missing) :
    findings policy node expected actual =
      Comparison.compare policy [] node expected actual := by
  rw [findings, Constraints.check_of_unconstrained hn hactual, Findings.empty_append]

/-- What keeps the comparison from being written keeps the assertion from a verdict. -/
theorem verdict_of_obstacle (a : Assertion) (hn : a.options.Unconstrained)
    (hexpected : a.expected.IsDocument) (hactual : a.actual.IsDocument ∨ a.actual = .missing)
    {o : Obstacle}
    (h : (Comparison.compare a.policy [] a.options a.expected a.actual).obstacle = some o) :
    a.verdict [] = .error (.obstacle o) := by
  rw [← findings_of_unconstrained hn hactual] at h
  rw [verdict, check, a.validate_of_isDocument hexpected, validate_eq_error_iff.2 h]

/-- An assertion passes when its comparison accepts. -/
theorem decides_of_unconstrained (a : Assertion) (hn : a.options.Unconstrained)
    (hexpected : a.expected.IsDocument) (hactual : a.actual.IsDocument ∨ a.actual = .missing) :
    a.Decides [] (Comparison.Accepts a.policy [] a.options a.expected a.actual) := by
  have hvalidate := a.validate_of_isDocument hexpected
  constructor
  · intro passes hpasses
    rw [Assertion.verdict, check, hvalidate] at hpasses
    cases hresult : JsonExpect.validate a.policy a.options a.expected a.actual with
    | error o =>
      rw [hresult] at hpasses
      cases hpasses
    | ok r =>
      rw [hresult] at hpasses
      cases hpasses
      rw [(validate_eq_ok_iff.1 hresult).2, findings_of_unconstrained hn hactual]
      exact List.isEmpty_iff
  · intro e he
    rw [Assertion.verdict, check, hvalidate] at he
    cases hresult : JsonExpect.validate a.policy a.options a.expected a.actual with
    | error o =>
      have hobstacle := validate_eq_error_iff.1 hresult
      rw [findings_of_unconstrained hn hactual] at hobstacle
      rw [hresult] at he
      cases he
      obtain ⟨rfl, hlong⟩ := Comparison.longInteger_of_obstacle hexpected rfl hobstacle
      exact ⟨rfl, hlong⟩
    | ok r =>
      rw [hresult] at he
      cases he

end Assertion

end JsonExpect
