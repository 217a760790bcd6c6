import JsonExpect.Proofs.Validation.KeyOrder

/-!
# What snapshots show does not matter

Snapshots are taken wherever a failure arises, also in the trials of elements that may match in any
order. Two validations that differ in their snapshot policies alone nonetheless report the same:
their failures `Concur` one by one (`validate_policies`). The walks are compared step by step. A
trial accepts under both policies or under none, as its failures concur, so the same elements are
taken from the pool and the walks stay in step.
-/

namespace JsonExpect

section Concur

variable (p : SnapshotPolicy)

/-- A failure under a policy and one under any other that say the same of the same location. The
first shows nothing where its policy has no snapshots. -/
structure Failure.Concur (f g : Failure) : Prop where
  finding : f.finding = g.finding
  bare : p.included = false → f.expected = none ∧ f.actual = none

/-- Findings under a policy and under any other that meet the same obstacle and whose failures
concur one by one. -/
structure Findings.Concur (a b : Findings) : Prop where
  failures : List.Forall₂ (Failure.Concur p) a.failures b.failures
  obstacle : a.obstacle = b.obstacle

end Concur

namespace Findings

variable {p q : SnapshotPolicy} {a b a' b' : Findings}

theorem concur_empty : Concur p ∅ ∅ := ⟨.nil, rfl⟩

theorem concur_met (obstacle : Option Obstacle) : Concur p (met obstacle) (met obstacle) :=
  ⟨.nil, rfl⟩

theorem concur_report {location : Location} (reason : Reason)
    {expected actual expected' actual' : Option (Except Obstacle String)}
    (hexpected : sideObstacle? expected = sideObstacle? expected')
    (hactual : sideObstacle? actual = sideObstacle? actual') :
    Concur p (report p location reason expected actual)
      (report q location reason expected' actual') where
  failures := .cons ⟨rfl, fun hp => by simp [shown, hp]⟩ .nil
  obstacle := by rw [obstacle_report, obstacle_report, hexpected, hactual]

theorem Concur.append (h : Concur p a b) (h' : Concur p a' b') :
    Concur p (a ++ a') (b ++ b') where
  failures := List.rel_append h.failures h'.failures
  obstacle := by rw [obstacle_append, obstacle_append, h.obstacle, h'.obstacle]

/-- Failures that concur say the same in the same order. -/
theorem Concur.map_finding_eq (h : Concur p a b) :
    a.failures.map Failure.finding = b.failures.map Failure.finding := by
  rw [← List.forall₂_eq_eq_eq, List.forall₂_map_left_iff, List.forall₂_map_right_iff]
  exact h.failures.imp fun _ _ hfg => hfg.finding

theorem Concur.isEmpty_eq (h : Concur p a b) : a.failures.isEmpty = b.failures.isEmpty := by
  rw [← List.isEmpty_map (f := Failure.finding), h.map_finding_eq, List.isEmpty_map]

end Findings

open Findings (Concur concur_empty concur_met concur_report)

variable {p q : SnapshotPolicy} {base : Location} {node : Node}

namespace Comparison

/-- At whatever length snapshots are cut, what keeps a value from being shown is the same. -/
theorem concur_side (reason : Reason) (expected actual : Value) :
    Concur p
      (.report p base reason (some (reason.side p.maxLength expected))
        (some (reason.side p.maxLength actual)))
      (.report q base reason (some (reason.side q.maxLength expected))
        (some (reason.side q.maxLength actual))) := by
  apply concur_report
  · rw [Reason.sideObstacle?_side, Reason.sideObstacle?_side]
  · rw [Reason.sideObstacle?_side, Reason.sideObstacle?_side]

theorem concur_countMismatch (reason : Reason) (m n : Nat) (expected actual : Value) :
    Concur p (countMismatch p base reason m n expected actual)
      (countMismatch q base reason m n expected actual) := by
  apply concur_report
  · rw [Findings.sideObstacle?_countedSnapshot, Findings.sideObstacle?_countedSnapshot]
  · rw [Findings.sideObstacle?_countedSnapshot, Findings.sideObstacle?_countedSnapshot]

theorem concur_unmatched (child : Node) (expected : Value) (pool : List Value) :
    Concur p (unmatched p base child expected pool) (unmatched q base child expected pool) := by
  apply concur_report
  · rw [Findings.sideObstacle?_snapshot, Findings.sideObstacle?_snapshot]
  · rw [Findings.sideObstacle?_map, Findings.sideObstacle?_map, Findings.sideObstacle?_snapshot,
      Findings.sideObstacle?_snapshot]

theorem concur_compareLeaf (expected actual : Value) :
    Concur p (compareLeaf p base node expected actual)
      (compareLeaf q base node expected actual) := by
  have hreport := fun reason : Reason => @concur_side p q base reason expected actual
  unfold compareLeaf compareScalars
  split
  · exact hreport .missing
  · split
    · split
      · split
        · exact hreport .valueEqual
        · exact concur_empty
      · split
        · exact hreport .valueMismatch
        · exact concur_empty
    · exact hreport .typeMismatch

theorem concur_compareMembers {ms : List (Key × Value)} (others : List (Key × Value))
    (hms : ∀ m ∈ ms, ∀ actual, Concur p
      (compare p (base ++ [m.1]) (node.resolveKey m.1) m.2 actual)
      (compare q (base ++ [m.1]) (node.resolveKey m.1) m.2 actual)) :
    Concur p (compareMembers p base node ms others) (compareMembers q base node ms others) := by
  induction ms with
  | nil => exact concur_empty
  | cons m ms ih =>
    obtain ⟨hm, hms⟩ := List.forall_mem_cons.1 hms
    exact ((concur_met _).append (hm _)).append (ih hms)

theorem concur_compareFixed {vs : List Value} (others : List Value) (i : Nat)
    (hvs : ∀ e ∈ vs.zipIdx i, ∀ actual, Concur p
      (compare p (base ++ [.int ↑e.2]) (element node e.2) e.1 actual)
      (compare q (base ++ [.int ↑e.2]) (element node e.2) e.1 actual)) :
    Concur p (compareFixed p base node i vs others) (compareFixed q base node i vs others) := by
  induction vs generalizing i others with
  | nil => exact concur_empty
  | cons v vs ih =>
    obtain ⟨hv, hvs⟩ := List.forall_mem_cons.1 hvs
    refine Concur.append ?_ (ih _ (i + 1) hvs)
    split
    · exact concur_empty
    · exact hv _

/-- Trials that concur take the same element and meet the same obstacle. -/
theorem takeFirst_eq_of_concur {trial trial' : Value → Findings}
    (h : ∀ a, Concur p (trial a) (trial' a)) (pool : List Value) :
    takeFirst trial pool = takeFirst trial' pool := by
  induction pool with
  | nil => rfl
  | cons a pool ih =>
    rw [takeFirst, takeFirst, ih, (h a).isEmpty_eq, (h a).obstacle]

theorem concur_compareFree {vs : List Value} (i : Nat) (pool : List Value)
    (hvs : ∀ e ∈ vs.zipIdx i, ∀ actual, Concur p
      (compare p (base ++ [.int ↑e.2]) (element node e.2) e.1 actual)
      (compare q (base ++ [.int ↑e.2]) (element node e.2) e.1 actual)) :
    Concur p (compareFree p base node i vs pool) (compareFree q base node i vs pool) := by
  induction vs generalizing i pool with
  | nil => exact concur_empty
  | cons v vs ih =>
    obtain ⟨hv, hvs⟩ := List.forall_mem_cons.1 hvs
    rw [compareFree, compareFree]
    split
    · simp only [takeFirst_eq_of_concur hv pool]
      generalize takeFirst _ pool = taken
      refine (concur_met _).append ?_
      cases taken.1 with
      | none => exact concur_unmatched _ _ _
      | some rest => exact ih _ _ hvs
    · exact ih _ _ hvs

/-- Comparisons under two policies concur. -/
theorem concur_compare (expected : Value) (base : Location) (node : Node) (actual : Value) :
    Concur p (compare p base node expected actual) (compare q base node expected actual) := by
  induction expected using Value.entries_induction generalizing base node actual with
  | step expected ih =>
    cases expected with
    | missing => exact concur_empty
    | null => exact concur_empty
    | object members =>
      cases actual with
      | object others =>
        rw [compare, compare]
        split
        · exact concur_countMismatch _ _ _ _ _
        · exact concur_compareMembers others fun m hm => ih m hm _ _
      | _ => exact concur_compareLeaf _ _
    | array items =>
      cases actual with
      | array others =>
        have hitem : ∀ e ∈ items.zipIdx 0, ∀ actual, Concur p
            (compare p (base ++ [.int ↑e.2]) (element node e.2) e.1 actual)
            (compare q (base ++ [.int ↑e.2]) (element node e.2) e.1 actual) :=
          fun e he => ih _ (List.mem_map_of_mem he) _ _
        rw [compare, compare]
        split
        · exact concur_countMismatch _ _ _ _ _
        · exact (concur_compareFixed others 0 hitem).append (concur_compareFree 0 _ hitem)
      | _ => exact concur_compareLeaf _ _
    | _ => exact concur_compareLeaf _ _

end Comparison

namespace Constraints

theorem concur_checkCount (count : Nat) :
    Concur p (checkCount p base node count) (checkCount q base node count) := by
  unfold checkCount
  split
  · exact concur_empty
  · split
    · exact concur_empty
    · exact concur_report _ rfl rfl

theorem concur_checkKey (holder : Value) (k : Key) :
    Concur p (checkKey p base node holder k) (checkKey q base node holder k) := by
  unfold checkKey
  split
  · refine concur_report _ rfl ?_
    rw [Findings.sideObstacle?_snapshot, Findings.sideObstacle?_snapshot]
  · exact concur_empty

theorem concur_countOfScalar :
    Concur p
      (if node.elementCount.isSome then .report p base .countOfScalar none none else ∅)
      (if node.elementCount.isSome then .report q base .countOfScalar none none else ∅) := by
  split
  · exact concur_report _ rfl rfl
  · exact concur_empty

theorem concur_checkMembers (holder : Value) {ms : List (Key × Value)}
    (hms : ∀ m ∈ ms, Concur p (check p (base ++ [m.1]) (node.resolveKey m.1) m.2)
      (check q (base ++ [m.1]) (node.resolveKey m.1) m.2)) :
    Concur p (checkMembers p base node holder ms) (checkMembers q base node holder ms) := by
  induction ms with
  | nil => exact concur_empty
  | cons m ms ih =>
    obtain ⟨hm, hms⟩ := List.forall_mem_cons.1 hms
    exact (((concur_met _).append (concur_checkKey holder m.1)).append hm).append (ih hms)

theorem concur_checkItems {vs : List Value} (i : Nat)
    (hvs : ∀ e ∈ vs.zipIdx i, Concur p
      (check p (base ++ [.int ↑e.2]) (node.resolve (toString e.2)) e.1)
      (check q (base ++ [.int ↑e.2]) (node.resolve (toString e.2)) e.1)) :
    Concur p (checkItems p base node i vs) (checkItems q base node i vs) := by
  induction vs generalizing i with
  | nil => exact concur_empty
  | cons v vs ih =>
    obtain ⟨hv, hvs⟩ := List.forall_mem_cons.1 hvs
    exact hv.append (ih (i + 1) hvs)

/-- Tests of the constraints under two policies concur. -/
theorem concur_check (actual : Value) (base : Location) (node : Node) :
    Concur p (check p base node actual) (check q base node actual) := by
  induction actual using Value.entries_induction generalizing base node with
  | step actual ih =>
    cases actual with
    | missing => exact concur_empty
    | object members =>
      exact (concur_checkMembers _ fun m hm => ih m hm _ _).append (concur_checkCount _)
    | array items =>
      have hitem : ∀ e ∈ items.zipIdx 0, Concur p
          (check p (base ++ [.int ↑e.2]) (node.resolve (toString e.2)) e.1)
          (check q (base ++ [.int ↑e.2]) (node.resolve (toString e.2)) e.1) :=
        fun e he => ih _ (List.mem_map_of_mem he) _ _
      exact (concur_checkItems 0 hitem).append (concur_checkCount _)
    | _ => exact concur_countOfScalar

end Constraints

/-- Both walks find the same under two policies, in the same order. -/
theorem concur_findings (expected actual : Value) :
    Concur p (findings p node expected actual) (findings q node expected actual) :=
  (Constraints.concur_check actual [] node).append
    (Comparison.concur_compare expected [] node actual)

/-- **Snapshots never decide.** Under any two snapshot policies the validations of documents, or of
what is missing, both give a result, or both come upon an integer of too many digits that they have
to write, be it shown or not. Both results have the same verdict and, in the same order, the same
key paths, kinds and messages. Without snapshots no failure shows either side. -/
theorem validate_policies (p q : SnapshotPolicy) (node : Node) {expected actual : Value}
    (hexpected : expected.IsDocument ∨ expected = .missing)
    (hactual : actual.IsDocument ∨ actual = .missing) :
    (∀ r, validate p node expected actual = .ok r →
      (∃ r', validate q node expected actual = .ok r' ∧ r.isValid = r'.isValid ∧
        r.failures.map (fun f => (f.keyPath, f.reason.kind, f.reason.message)) =
          r'.failures.map (fun f => (f.keyPath, f.reason.kind, f.reason.message))) ∧
      (p.included = false → ∀ f ∈ r.failures, f.expected = none ∧ f.actual = none)) ∧
      ∀ o, validate p node expected actual = .error o →
        validate q node expected actual = .error o ∧ o = .longInteger ∧
          node.facesLongInteger expected actual = true := by
  have hconcur : Concur p (findings p node expected actual) (findings q node expected actual) :=
    concur_findings expected actual
  refine ⟨fun r hr => ?_, fun o ho => ?_⟩
  · obtain ⟨hnone, rfl⟩ := validate_eq_ok_iff.1 hr
    refine ⟨⟨_, validate_eq_ok_iff.2 ⟨hconcur.obstacle ▸ hnone, rfl⟩, hconcur.isEmpty_eq, ?_⟩,
      fun hp => ?_⟩
    · have hverdicts := congrArg
        (List.map fun x : Location × Reason => (Location.text x.1, x.2.kind, x.2.message))
        hconcur.map_finding_eq
      rwa [List.map_map, List.map_map] at hverdicts
    · have hbare := hconcur.failures.imp fun f g hfg => And.intro (hfg.bare hp) hfg
      exact ((List.forall₂_and_left _ _).1 hbare).1
  · have hobstacle := validate_eq_error_iff.1 ho
    rw [hconcur.obstacle] at hobstacle
    exact ⟨validate_eq_error_iff.2 hobstacle, longInteger_of_validate hexpected hactual ho⟩

/-- No snapshots against snapshots that are cut to nothing, with a trial that is refused: three
failures under both. -/
theorem validate_policies_any_order :
    let node := Node.configured [⟨.flag .anyOrder true, ⟨[.key "a", .anyIndex]⟩, .singleNode⟩]
    let expected := Value.object [(.string "a", .array [.object [(.string "x", .int 1)],
      .object [(.string "x", .int 2)]]), (.string "b", .bool true), (.string "c", .int 0)]
    let actual := Value.object [(.string "a", .array [.object [(.string "x", .int 3)],
      .object [(.string "x", .int 1)]]), (.string "b", .int 0), (.string "d", .null)]
    let bare : SnapshotPolicy := { included := false, maxLength := some (-3) }
    let cut : SnapshotPolicy := { maxLength := some 0 }
    expected.IsDocument ∧ actual.IsDocument ∧
      ∃ r r', validate bare node expected actual = .ok r ∧
        validate cut node expected actual = .ok r' ∧ r.isValid = r'.isValid ∧
          r.failures.map (fun f => (f.keyPath, f.reason.kind, f.reason.message)) =
            r'.failures.map (fun f => (f.keyPath, f.reason.kind, f.reason.message)) ∧
          (∀ f ∈ r.failures, f.expected = none ∧ f.actual = none) ∧
          r'.failures.map (fun f => (f.keyPath, f.expected)) =
            [("a", some "..."), ("b", some "... (Type: boolean)"), ("c", some "...")] := by
  intro node expected actual bare cut
  have hexpected : expected.IsDocument := by decide +kernel
  have hactual : actual.IsDocument := by decide +kernel
  have hfaces : node.facesLongInteger expected actual = false := by decide +kernel
  obtain ⟨r, hr⟩ := exists_result bare (.inl hexpected) (.inl hactual) hfaces
  obtain ⟨⟨r', hr', hvalid, hverdicts⟩, hbare⟩ :=
    (validate_policies bare cut node (.inl hexpected) (.inl hactual)).1 r hr
  have hpaths : r'.failures.map (fun f => (f.keyPath, f.expected)) =
      [("a", some "..."), ("b", some "... (Type: boolean)"), ("c", some "...")] := by
    rw [(validate_eq_ok_iff.1 hr').2]
    decide +kernel
  exact ⟨hexpected, hactual, r, r', hr, hr', hvalid, hverdicts, hbare rfl, hpaths⟩

end JsonExpect
