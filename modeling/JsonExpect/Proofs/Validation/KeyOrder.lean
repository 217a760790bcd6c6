import JsonExpect.Proofs.Validation.Constraints
import JsonExpect.Proofs.Value.Reordering

/-!
# The order of members does not matter

Findings are `Alike` when they say the same of the same locations, each equally often, and when both
have met an obstacle or both have not. Two validations of documents that differ at most in the order
in which members are written have findings that are alike (`validate_reordered`). Members are
compared in the order of the expected object, so failures change places; but a failure at a free
element depends on which actual elements are left, so one has to know that every trial still turns
out as it did. The pools are therefore related element by element, and a trial accepts on one side
just when it does on the other because its findings are alike on both.
-/

namespace JsonExpect

/-- What a failure says and where, without what it shows. -/
def Failure.finding (f : Failure) : Location × Reason := (f.location, f.reason)

namespace Findings

/-- Findings that say the same of the same locations, each equally often, and that both have met an
obstacle or both have not. -/
structure Alike (a b : Findings) : Prop where
  failures : (a.failures.map Failure.finding).Perm (b.failures.map Failure.finding)
  obstacle : a.obstacle.isSome = b.obstacle.isSome

variable {a b a' b' : Findings}

theorem Alike.refl (a : Findings) : Alike a a := ⟨.refl _, rfl⟩

theorem isSome_obstacle_append (a b : Findings) :
    (a ++ b).obstacle.isSome = (a.obstacle.isSome || b.obstacle.isSome) := by
  rw [obstacle_append]
  cases a.obstacle <;> rfl

theorem Alike.append (h : Alike a b) (h' : Alike a' b') : Alike (a ++ a') (b ++ b') where
  failures := by
    rw [failures_append, failures_append, List.map_append, List.map_append]
    exact h.failures.append h'.failures
  obstacle := by
    rw [isSome_obstacle_append, isSome_obstacle_append, h.obstacle, h'.obstacle]

theorem Alike.eq_nil_iff (h : Alike a b) : a.failures = [] ↔ b.failures = [] := by
  have hlength : a.failures.length = b.failures.length := by simpa using h.failures.length_eq
  rw [← List.length_eq_zero_iff, hlength, List.length_eq_zero_iff]

theorem alike_met {o o' : Option Obstacle} (h : o.isSome = o'.isSome) :
    Alike (met o) (met o') := ⟨.refl _, h⟩

/-- What a failure shows does not matter, as long as it can be shown. -/
theorem alike_report {policy : SnapshotPolicy} {base : Location} (reason : Reason)
    {expected actual expected' actual' : Option (Except Obstacle String)}
    (hexpected : sideObstacle? expected = sideObstacle? expected')
    (hactual : sideObstacle? actual = sideObstacle? actual') :
    Alike (report policy base reason expected actual)
      (report policy base reason expected' actual') where
  failures := .refl _
  obstacle := by rw [obstacle_report, obstacle_report, hexpected, hactual]

/-- Findings in turn are alike in any order. -/
theorem alike_join {α β : Type} {ms : List (Key × α)} {ns : List (Key × β)}
    {f : Key × α → Findings} {g : Key × β → Findings}
    (keys : (ms.map Prod.fst).Perm (ns.map Prod.fst))
    (h : ∀ m ∈ ms, ∀ n ∈ ns, m.1 = n.1 → Alike (f m) (g n)) :
    Alike (join (ms.map f)) (join (ns.map g)) where
  failures := by
    simp only [join, List.flatMap_map, List.map_flatMap]
    exact flatMap_perm_of_keys keys fun m hm n hn hkey => (h m hm n hn hkey).failures
  obstacle := by
    rw [Bool.eq_iff_iff]
    simp only [join, List.findSome?_isSome_iff, List.mem_map, exists_exists_and_eq_and]
    constructor
    · rintro ⟨m, hm, hobstacle⟩
      obtain ⟨n, hn, hkey⟩ := List.mem_map.1 (keys.subset (List.mem_map_of_mem hm))
      exact ⟨n, hn, by rwa [← (h m hm n hn hkey.symm).obstacle]⟩
    · rintro ⟨n, hn, hobstacle⟩
      obtain ⟨m, hm, hkey⟩ := List.mem_map.1 (keys.symm.subset (List.mem_map_of_mem hn))
      exact ⟨m, hm, by rwa [(h m hm n hn hkey).obstacle]⟩

end Findings

open Findings (Alike alike_report)

theorem Value.Reordered.obstacle?_eq {v w : Value} (h : v.Reordered w) :
    v.obstacle? = w.obstacle? := by
  rw [obstacle?, obstacle?, h.holdsLongInteger_eq]

namespace Comparison

variable {policy : SnapshotPolicy} {base : Location} {node : Node}

/-- A document and the same one with its members in another order. -/
def Rewritten (a b : Value) : Prop := a.IsDocument ∧ a.Reordered b

/-- Two expected values that differ at most in the order of members, and that no comparison tells
apart, not even with an actual value rewritten or missing. -/
structure Interchangeable (policy : SnapshotPolicy) (v w : Value) : Prop where
  reordered : v.Reordered w
  alike : ∀ base node {a b : Value}, a.IsDocument ∨ a = .missing → a.Reordered b →
    Alike (compare policy base node v a) (compare policy base node w b)

/-! ## One layer -/

/-- A failure about values whose members have changed places. -/
theorem alike_side (reason : Reason) {v w a b : Value} (h : v.Reordered w) (hab : a.Reordered b) :
    Alike
      (.report policy base reason (some (reason.side policy.maxLength v))
        (some (reason.side policy.maxLength a)))
      (.report policy base reason (some (reason.side policy.maxLength w))
        (some (reason.side policy.maxLength b))) := by
  apply alike_report
  · rw [Reason.sideObstacle?_side, Reason.sideObstacle?_side, h.obstacle?_eq]
  · rw [Reason.sideObstacle?_side, Reason.sideObstacle?_side, hab.obstacle?_eq]

theorem alike_countMismatch (reason : Reason) (m n : Nat) {v w a b : Value} (h : v.Reordered w)
    (hab : a.Reordered b) :
    Alike (countMismatch policy base reason m n v a)
      (countMismatch policy base reason m n w b) := by
  apply alike_report
  · rw [Findings.sideObstacle?_countedSnapshot, Findings.sideObstacle?_countedSnapshot,
      h.obstacle?_eq]
  · rw [Findings.sideObstacle?_countedSnapshot, Findings.sideObstacle?_countedSnapshot,
      hab.obstacle?_eq]

theorem alike_compareLeaf {v w a b : Value} (h : v.Reordered w) (hab : a.Reordered b) :
    Alike (compareLeaf policy base node v a) (compareLeaf policy base node w b) := by
  have hreport := fun reason : Reason => @alike_side policy base reason v w a b h hab
  unfold compareLeaf compareScalars
  rw [h.kind?_eq, hab.kind?_eq, hab.isMissing_eq, h.sameScalar_eq hab]
  split
  · exact hreport .missing
  · split
    · split
      · split
        · exact hreport .valueEqual
        · exact .refl ∅
      · split
        · exact hreport .valueMismatch
        · exact .refl ∅
    · exact hreport .typeMismatch

theorem compareMembers_eq_join (ms others : List (Key × Value)) :
    compareMembers policy base node ms others =
      .join (ms.map fun m => .met m.1.obstacle? ++ compare policy (base ++ [m.1])
        (node.resolveKey m.1) m.2 ((Value.object others).entry m.1)) := by
  induction ms with
  | nil => rfl
  | cons m ms ih =>
    rw [compareMembers, List.map_cons, Findings.join_cons, ih]
    rfl

/-- Members give rise to the same in any order. -/
theorem alike_compareMembers {ms ns others others' : List (Key × Value)}
    (hothers : (Value.object others).IsDocument)
    (hreordered : (Value.object others).Reordered (.object others'))
    (keys : (ms.map Prod.fst).Perm (ns.map Prod.fst))
    (h : ∀ m ∈ ms, ∀ n ∈ ns, m.1 = n.1 → Interchangeable policy m.2 n.2) :
    Alike (compareMembers policy base node ms others)
      (compareMembers policy base node ns others') := by
  rw [compareMembers_eq_join, compareMembers_eq_join]
  apply Findings.alike_join keys
  intro m hm n hn hkey
  rw [← hkey]
  exact (Alike.refl _).append
    ((h m hm n hn hkey).alike _ _ hothers.entry (hreordered.entry (.inl hothers) m.1))

/-! ## Arrays -/

theorem alike_compareFixed {vs ws others others' : List Value}
    (h : List.Forall₂ (Interchangeable policy) vs ws)
    (hothers : List.Forall₂ Rewritten others others') (i : Nat) :
    Alike (compareFixed policy base node i vs others)
      (compareFixed policy base node i ws others') := by
  induction h generalizing i others others' with
  | nil => exact .refl ∅
  | @cons v w vs ws hv _ ih =>
    have hhead : ((others.headD .missing).IsDocument ∨ others.headD .missing = .missing) ∧
        (others.headD .missing).Reordered (others'.headD .missing) := by
      cases hothers with
      | nil => exact ⟨.inr rfl, .leaf rfl⟩
      | cons hab _ => exact ⟨.inl hab.1, hab.2⟩
    have htail : List.Forall₂ Rewritten others.tail others'.tail := by
      cases hothers with
      | nil => exact .nil
      | cons _ hrest => exact hrest
    rw [compareFixed, compareFixed]
    apply Alike.append
    · split
      · exact .refl ∅
      · exact hv.alike _ _ hhead.1 hhead.2
    · exact ih htail (i + 1)

section Pool

variable {R : Value → Value → Prop} {pool' pool'' : List Value}

/-- The same positions are in both pools. -/
theorem forall₂_pool {others others' : List Value} (h : List.Forall₂ R others others') (n i : Nat) :
    List.Forall₂ R (pool node n i others) (pool node n i others') := by
  induction h generalizing n i with
  | nil => exact .nil
  | cons hab _ ih =>
    rw [pool, pool]
    split
    · exact .cons hab (ih _ _)
    · exact ih _ _

theorem takeFirst_cons (trial : Value → Findings) (a : Value) (rest : List Value) :
    takeFirst trial (a :: rest) =
      if (trial a).failures = [] then (some rest, (trial a).obstacle)
      else ((takeFirst trial rest).1.map (a :: ·),
        (trial a).obstacle <|> (takeFirst trial rest).2) := by
  rw [takeFirst]
  by_cases ha : (trial a).failures = []
  · simp [ha]
  · simp [ha]

/-- Trials that turn out alike on both sides take what stands at the same position, and meet an
obstacle on both sides or on none. -/
theorem rel_takeFirst {trial trial' : Value → Findings} (h : List.Forall₂ R pool' pool'')
    (htrial : ∀ a b, R a b → Alike (trial a) (trial' b)) :
    Option.Rel (List.Forall₂ R) (takeFirst trial pool').1 (takeFirst trial' pool'').1 ∧
      (takeFirst trial pool').2.isSome = (takeFirst trial' pool'').2.isSome := by
  induction h with
  | nil => exact ⟨.none, rfl⟩
  | @cons a b pool' pool'' hab hrest ih =>
    have halike := htrial a b hab
    rw [takeFirst_cons, takeFirst_cons]
    by_cases ha : (trial a).failures = []
    · rw [if_pos ha, if_pos (halike.eq_nil_iff.1 ha)]
      exact ⟨.some hrest, halike.obstacle⟩
    · rw [if_neg ha, if_neg fun hb => ha (halike.eq_nil_iff.2 hb)]
      revert ih
      generalize takeFirst trial pool' = taken
      generalize takeFirst trial' pool'' = taken'
      obtain ⟨rest, met⟩ := taken
      obtain ⟨rest', met'⟩ := taken'
      rintro ⟨ih, hmet⟩
      refine ⟨?_, ?_⟩
      · cases ih with
        | none => exact .none
        | some hpools => exact .some (.cons hab hpools)
      · have hobstacle := halike.obstacle
        revert hobstacle hmet
        simp only
        cases (trial a).obstacle <;> cases (trial' b).obstacle <;> simp

theorem alike_compareFree {vs ws : List Value} (h : List.Forall₂ (Interchangeable policy) vs ws)
    (hpool : List.Forall₂ Rewritten pool' pool'') (i : Nat) :
    Alike (compareFree policy base node i vs pool')
      (compareFree policy base node i ws pool'') := by
  induction h generalizing i pool' pool'' with
  | nil => exact .refl ∅
  | @cons v w vs ws hv _ ih =>
    rw [compareFree, compareFree]
    split
    · obtain ⟨htaken, hmet⟩ := rel_takeFirst hpool fun a b hab =>
        hv.alike (base ++ [.int ↑i]) (element node i) (.inl hab.1) hab.2
      have hleft := Value.Reordered.of_forall₂ (hpool.imp fun _ _ hab => hab.2)
      refine (Findings.alike_met hmet).append ?_
      revert htaken
      generalize (takeFirst (compare policy (base ++ [.int ↑i]) (element node i) v) pool').1 = taken
      generalize (takeFirst (compare policy (base ++ [.int ↑i]) (element node i) w) pool'').1 =
        taken'
      intro htaken
      cases htaken with
      | none =>
        apply alike_report
        · rw [Findings.sideObstacle?_snapshot, Findings.sideObstacle?_snapshot,
            hv.reordered.obstacle?_eq]
        · rw [Findings.sideObstacle?_map, Findings.sideObstacle?_map,
            Findings.sideObstacle?_snapshot, Findings.sideObstacle?_snapshot, hleft.obstacle?_eq]
      | some hrest => exact ih hrest (i + 1)
    · exact ih hpool (i + 1)

end Pool

/-! ## Documents -/

/-- A collection against something of another kind. -/
theorem alike_of_kind_ne {v w a b : Value} (h : v.Reordered w) (hab : a.Reordered b)
    (hv : v.isCollection = true) (hk : v.kind? ≠ a.kind?) :
    Alike (compare policy base node v a) (compare policy base node w b) := by
  have hw : w.isCollection = true := h.isCollection_eq ▸ hv
  have hk' : w.kind? ≠ b.kind? := by rwa [← h.kind?_eq, ← hab.kind?_eq]
  rw [compare_eq_compareLeaf hv hk, compare_eq_compareLeaf hw hk']
  exact alike_compareLeaf h hab

/-- No comparison tells a value from the same one with its members in another order. -/
theorem interchangeable_of_reordered {v w : Value} (h : v.Reordered w) :
    Interchangeable policy v w := by
  induction h with
  | @leaf v hleaf =>
    refine ⟨.leaf hleaf, fun base node a b _ hab => ?_⟩
    have hleaf' : (∀ a, compare policy base node v a = ∅) ∨
        ∀ a, compare policy base node v a = compareLeaf policy base node v a := by
      cases v <;> first | exact .inl fun _ => rfl | exact .inr fun _ => rfl | cases hleaf
    obtain hempty | hleaf' := hleaf'
    · rw [hempty, hempty]
      exact .refl ∅
    · rw [hleaf', hleaf']
      exact alike_compareLeaf (.leaf hleaf) hab
  | @array items items' size all ih =>
    have h : (Value.array items).Reordered (.array items') := .array size all
    refine ⟨h, fun base node a b ha hab => ?_⟩
    by_cases hk : (Value.array items).kind? = a.kind?
    · obtain ⟨others, rfl⟩ := Value.exists_array_of_kind? hk
      cases hab with
      | leaf hleaf => cases hleaf
      | @array _ others' size' all' =>
        have hdoc : (Value.array others).IsDocument := ha.resolve_right (by simp)
        have hitems : List.Forall₂ (Interchangeable policy) items items' :=
          List.forall₂_iff_get.2 ⟨size, ih⟩
        have hothers : List.Forall₂ Rewritten others others' :=
          List.forall₂_iff_get.2 ⟨size', fun i hi hi' =>
            ⟨hdoc.items _ (List.getElem_mem hi), all' i hi hi'⟩⟩
        rw [compare, compare, size, size']
        cases node.countViolation? items'.length others'.length with
        | some reason => exact alike_countMismatch reason _ _ h (.array size' all')
        | none =>
          exact (alike_compareFixed hitems hothers 0).append
            (alike_compareFree hitems (forall₂_pool hothers _ _) 0)
    · exact alike_of_kind_ne h hab rfl hk
  | @object members members' keys all ih =>
    have h : (Value.object members).Reordered (.object members') := .object keys all
    refine ⟨h, fun base node a b ha hab => ?_⟩
    by_cases hk : (Value.object members).kind? = a.kind?
    · obtain ⟨others, rfl⟩ := Value.exists_object_of_kind? hk
      cases hab with
      | leaf hleaf => cases hleaf
      | @object _ others' keys' all' =>
        have hdoc : (Value.object others).IsDocument := ha.resolve_right (by simp)
        have hmembers : members.length = members'.length := by simpa using keys.length_eq
        have hothers : others.length = others'.length := by simpa using keys'.length_eq
        rw [compare, compare, hmembers, hothers]
        cases node.countViolation? members'.length others'.length with
        | some reason => exact alike_countMismatch reason _ _ h (.object keys' all')
        | none => exact alike_compareMembers hdoc (.object keys' all') keys ih
    · exact alike_of_kind_ne h hab rfl hk

end Comparison

namespace Constraints

variable {policy : SnapshotPolicy} {node : Node} {a b : Value}

/-- A step of a walk says the same in a document and in a reordered one. -/
theorem finding_constraintFailure? (ha : a.IsDocument) (h : a.Reordered b) (x : Visit) :
    (node.constraintFailure? policy [] a x).map Failure.finding =
      (node.constraintFailure? policy [] b x).map Failure.finding := by
  cases x with
  | enter l =>
    simp only [Node.constraintFailure?, Node.keyFailure?]
    split
    · split <;> rfl
    · rfl
  | leave l =>
    have hl : (a.locate l).Reordered (b.locate l) := h.locate (.inl ha) l
    simp only [Node.constraintFailure?, Node.countFailure?]
    rw [hl.isCollection_eq, hl.size_eq]

/-- A step of a walk cannot be written in a document just when it cannot in a reordered one. -/
theorem hidesAt_reordered (ha : a.IsDocument) (h : a.Reordered b) (x : Visit) :
    node.hidesAt a x = node.hidesAt b x := by
  cases x with
  | enter l =>
    have hl : (a.locate l.dropLast).Reordered (b.locate l.dropLast) := h.locate (.inl ha) _
    rw [Node.hidesAt, Node.hidesAt, Node.hidesKey, Node.hidesKey, hl.holdsLongInteger_eq]
  | leave l =>
    have hl : (a.locate l).Reordered (b.locate l) := h.locate (.inl ha) l
    rw [Node.hidesAt, Node.hidesAt, Node.hidesCount, Node.hidesCount, hl.isCollection_eq,
      hl.size_eq]

/-- The constraints say the same of a document and of a reordered one. -/
theorem alike_check (ha : a.IsDocument) (h : a.Reordered b) :
    Alike (check policy [] node a) (check policy [] node b) := by
  rw [check_eq policy node ha, check_eq policy node (h.isDocument ha)]
  refine ⟨?_, ?_⟩
  · have hsteps : ∀ x, (node.constraintFailure? policy [] a x).map Failure.finding =
        (node.constraintFailure? policy [] b x).map Failure.finding :=
      finding_constraintFailure? ha h
    simp only [List.map_filterMap]
    rw [funext hsteps]
    exact h.visits_perm.filterMap _
  · have hhides : a.visits.any (node.hidesAt a) = b.visits.any (node.hidesAt b) := by
      rw [funext (hidesAt_reordered ha h)]
      exact h.visits_perm.any_eq
    rw [hhides]

end Constraints

variable {expected expected' actual actual' : Value}

theorem alike_findings (policy : SnapshotPolicy) (node : Node)
    (hactual : actual.IsDocument ∨ actual = .missing) (h : expected.Reordered expected')
    (h' : actual.Reordered actual') :
    Alike (findings policy node expected actual) (findings policy node expected' actual') := by
  have hcheck : Alike (Constraints.check policy [] node actual)
      (Constraints.check policy [] node actual') := by
    obtain hactual | rfl := hactual
    · exact Constraints.alike_check hactual h'
    · cases h' with
      | leaf _ => exact .refl _
  exact hcheck.append ((Comparison.interchangeable_of_reordered h).alike [] node hactual h')

/-- **Key order does not matter.** Two expected documents and two actual ones may differ in the
order in which members are written. Then both validations give a result, or both come upon an
integer of too many digits that they have to write. Both results are valid or neither is, and their
failures have the same key paths, kinds and messages, each equally often. -/
theorem validate_reordered (policy : SnapshotPolicy) (node : Node)
    {expected expected' actual actual' : Value}
    (hexpected : expected.IsDocument ∨ expected = .missing)
    (hactual : actual.IsDocument ∨ actual = .missing)
    (h : expected.Reordered expected') (h' : actual.Reordered actual') :
    (∀ r, validate policy node expected actual = .ok r →
      ∃ r', validate policy node expected' actual' = .ok r' ∧ r.isValid = r'.isValid ∧
        (r.failures.map fun f => (f.keyPath, f.reason.kind, f.reason.message)).Perm
          (r'.failures.map fun f => (f.keyPath, f.reason.kind, f.reason.message))) ∧
      ∀ o, validate policy node expected actual = .error o →
        validate policy node expected' actual' = .error .longInteger ∧ o = .longInteger ∧
          node.facesLongInteger expected actual = true := by
  have halike := alike_findings policy node hactual h h'
  refine ⟨fun r hr => ?_, fun o ho => ?_⟩
  · obtain ⟨hnone, rfl⟩ := validate_eq_ok_iff.1 hr
    have hnone' : (findings policy node expected' actual').obstacle = none := by
      rw [← Option.isNone_iff_eq_none, ← Option.not_isSome, ← halike.obstacle, hnone]
      rfl
    refine ⟨_, validate_eq_ok_iff.2 ⟨hnone', rfl⟩, ?_, ?_⟩
    · rw [Bool.eq_iff_iff, Result.isValid, Result.isValid, List.isEmpty_iff, List.isEmpty_iff]
      exact halike.eq_nil_iff
    · have hfindings := List.Perm.map
        (fun x : Location × Reason => (Location.text x.1, x.2.kind, x.2.message)) halike.failures
      rwa [List.map_map, List.map_map] at hfindings
  · obtain ⟨rfl, hfaces⟩ := longInteger_of_validate hexpected hactual ho
    have hsome : (findings policy node expected' actual').obstacle.isSome := by
      rw [← halike.obstacle, validate_eq_error_iff.1 ho]
      rfl
    obtain ⟨o', ho'⟩ := Option.isSome_iff_exists.1 hsome
    have herror := validate_eq_error_iff.2 ho'
    obtain ⟨rfl, -⟩ := longInteger_of_validate (h.present hexpected) (h'.present hactual) herror
    exact ⟨herror, rfl, hfaces⟩

/-- Members in another order at the top and inside elements that may match in any order: the same
three failures, in another order. -/
theorem validate_reordered_any_order :
    let node := Node.configured [⟨.flag .anyOrder true, ⟨[.key "a", .anyIndex]⟩, .singleNode⟩]
    let expected := Value.object [(.string "a", .array [.object [(.string "x", .int 1)],
      .object [(.string "x", .int 2), (.string "y", .null)]]), (.string "b", .bool true),
      (.string "c", .int 0)]
    let expected' := Value.object [(.string "c", .int 0), (.string "a",
      .array [.object [(.string "x", .int 1)],
        .object [(.string "y", .null), (.string "x", .int 2)]]), (.string "b", .bool true)]
    let actual := Value.object [(.string "a", .array [.object [(.string "z", .int 5),
      (.string "x", .int 3)], .object [(.string "x", .int 1), (.string "z", .int 5)]]),
      (.string "b", .int 0), (.string "d", .null)]
    let actual' := Value.object [(.string "d", .null), (.string "b", .int 0), (.string "a",
      .array [.object [(.string "x", .int 3), (.string "z", .int 5)],
        .object [(.string "x", .int 1), (.string "z", .int 5)]])]
    expected.IsDocument ∧ actual.IsDocument ∧ expected.Reordered expected' ∧
      actual.Reordered actual' ∧
      ∃ r r', validate {} node expected actual = .ok r ∧
        validate {} node expected' actual' = .ok r' ∧ r.isValid = r'.isValid ∧
          (r.failures.map fun f => (f.keyPath, f.reason.kind, f.reason.message)).Perm
            (r'.failures.map fun f => (f.keyPath, f.reason.kind, f.reason.message)) ∧
          r.failures.map (·.keyPath) = ["a", "b", "c"] ∧
            r'.failures.map (·.keyPath) = ["c", "a", "b"] := by
  intro node expected expected' actual actual'
  have hexpected : expected.IsDocument := by decide +kernel
  have hactual : actual.IsDocument := by decide +kernel
  have hint : ∀ n, (Value.int n).Reordered (.int n) := fun n => .leaf rfl
  have hnull : Value.null.Reordered .null := .leaf rfl
  have hbool : (Value.bool true).Reordered (.bool true) := .leaf rfl
  have h : expected.Reordered expected' := by
    have hfirst : (Value.object [(.string "x", .int 1)]).Reordered
        (.object [(.string "x", .int 1)]) := .object (by decide) (by simp [hint])
    have hsecond : (Value.object [(.string "x", .int 2), (.string "y", .null)]).Reordered
        (.object [(.string "y", .null), (.string "x", .int 2)]) :=
      .object (by decide) (by simp [hint, hnull])
    have hitems := Value.Reordered.of_forall₂ (.cons hfirst (.cons hsecond .nil))
    exact .object (by decide) (by simp [hint, hbool, hitems])
  have h' : actual.Reordered actual' := by
    have hfirst : (Value.object [(.string "z", .int 5), (.string "x", .int 3)]).Reordered
        (.object [(.string "x", .int 3), (.string "z", .int 5)]) :=
      .object (by decide) (by simp [hint])
    have hsecond : (Value.object [(.string "x", .int 1), (.string "z", .int 5)]).Reordered
        (.object [(.string "x", .int 1), (.string "z", .int 5)]) :=
      .object (by decide) (by simp [hint])
    have hitems := Value.Reordered.of_forall₂ (.cons hfirst (.cons hsecond .nil))
    exact .object (by decide) (by simp [hint, hnull, hitems])
  have hfaces : node.facesLongInteger expected actual = false := by decide +kernel
  obtain ⟨r, hr⟩ := exists_result {} (.inl hexpected) (.inl hactual) hfaces
  obtain ⟨r', hr', hvalid, hperm⟩ :=
    (validate_reordered {} node (.inl hexpected) (.inl hactual) h h').1 r hr
  have hpaths : r.failures.map (·.keyPath) = ["a", "b", "c"] := by
    rw [(validate_eq_ok_iff.1 hr).2]
    decide +kernel
  have hpaths' : r'.failures.map (·.keyPath) = ["c", "a", "b"] := by
    rw [(validate_eq_ok_iff.1 hr').2]
    decide +kernel
  exact ⟨hexpected, hactual, h, h', r, r', hr, hr', hvalid, hperm, hpaths, hpaths'⟩

end JsonExpect
