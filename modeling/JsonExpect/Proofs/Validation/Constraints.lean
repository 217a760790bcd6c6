import JsonExpect.Proofs.Options.Log
import JsonExpect.Proofs.Validation.Obstruction
import JsonExpect.Proofs.Value.Walk
import JsonExpect.Validation.Validate

/-!
# Constraints are tested along a walk

The constraints on an actual document are tested along a walk over it. Coming to the location of a
member, the walk reports that its key is there if it must not be; leaving a location, it reports
that what stands there has another number of entries than required, or is no collection to have any.
All locations are tested, also below arrays and below keys that are reported themselves
(`Constraints.validate_eq`).

A required number of entries that is too long to be written keeps all from being reported where it
is not met (`Constraints.validate_long_count`), and so does a forbidden key in an object that holds
an integer of too many digits. Without such integers on either side, and with no such number unmet,
every validation of documents gives a result (`exists_result`).
-/

namespace JsonExpect

namespace Node

/-- The failure of a location at a key that is there and must not be. The key of a member is a
string; an item has no key that could be forbidden. -/
def keyFailure? (policy : SnapshotPolicy) (base : Location) (node : Node) (actual : Value)
    (l : Location) : Option Failure :=
  match l.getLast? with
  | some (.string name) =>
    if (node.along l).flag .keyMustBeAbsent then
      some ⟨base ++ l, .keyPresent (.string name), none,
        Findings.shown policy (some ((actual.locate l.dropLast).snapshot policy.maxLength))⟩
    else none
  | _ => none

/-- The failure of a location where a number of entries is required that is not there. -/
def countFailure? (policy : SnapshotPolicy) (base : Location) (node : Node) (actual : Value)
    (l : Location) : Option Failure :=
  match (node.along l).elementCount with
  | none => none
  | some n =>
    if (actual.locate l).isCollection then
      if ((actual.locate l).size : Int) = n then none
      else some ⟨base ++ l, .elementCountMismatch,
        Findings.shown policy (some (Constraints.countText n)),
        Findings.shown policy (some (.ok s!"count: {(actual.locate l).size}"))⟩
    else some ⟨base ++ l, .countOfScalar, none, none⟩

/-- The failure that a step of a walk gives rise to. -/
def constraintFailure? (policy : SnapshotPolicy) (base : Location) (node : Node) (actual : Value) :
    Visit → Option Failure
  | .enter l => node.keyFailure? policy base actual l
  | .leave l => node.countFailure? policy base actual l

/-- Whether the failure of a number of entries cannot be written since the required number is too
long. -/
def hidesCount (node : Node) (actual : Value) (l : Location) : Bool :=
  (node.along l).elementCount.any fun n =>
    (actual.locate l).isCollection && ((actual.locate l).size : Int) != n && hasLongNumeral n

/-- Whether the failure of a key that must not be there cannot be written since the object cannot be
shown. -/
def hidesKey (node : Node) (actual : Value) (l : Location) : Bool :=
  match l.getLast? with
  | some (.string _) =>
    (node.along l).flag .keyMustBeAbsent && (actual.locate l.dropLast).holdsLongInteger
  | _ => false

/-- Whether the failure of a step of a walk cannot be written. -/
def hidesAt (node : Node) (actual : Value) : Visit → Bool
  | .enter l => node.hidesKey actual l
  | .leave l => node.hidesCount actual l

/-- Whether no location has a constraint: no key must be absent, no number of entries is required.
-/
structure Unconstrained (node : Node) : Prop where
  key : ∀ l, (node.along l).flag .keyMustBeAbsent = false
  count : ∀ l, (node.along l).elementCount = none

section Below

variable (policy : SnapshotPolicy) (base : Location) (node : Node) (actual : Value) (k : Key)

theorem keyFailure?_cons {l : Location} (hl : l ≠ []) :
    node.keyFailure? policy base actual (k :: l) =
      (node.resolveKey k).keyFailure? policy (base ++ [k]) (actual.entry k) l := by
  obtain ⟨j, l, rfl⟩ := List.exists_cons_of_ne_nil hl
  rw [keyFailure?, keyFailure?, List.getLast?_cons_cons, List.dropLast_cons_cons, along_cons,
    Value.locate_cons, List.append_assoc]
  rfl

theorem countFailure?_cons (l : Location) :
    node.countFailure? policy base actual (k :: l) =
      (node.resolveKey k).countFailure? policy (base ++ [k]) (actual.entry k) l := by
  rw [countFailure?, countFailure?, List.append_assoc]
  rfl

theorem constraintFailure?_below {x : Visit} (hx : x ≠ .enter []) :
    node.constraintFailure? policy base actual (x.below k) =
      (node.resolveKey k).constraintFailure? policy (base ++ [k]) (actual.entry k) x := by
  cases x with
  | enter l => exact node.keyFailure?_cons policy base actual k fun hl => hx (congrArg _ hl)
  | leave l => exact node.countFailure?_cons policy base actual k l

/-- The steps below a key give rise to what they do inside its value. On the first of them the key
itself is reported, which cannot be seen from inside. -/
theorem filterMap_constraintFailure?_below :
    ((actual.entry k).visits.map (·.below k)).filterMap
        (node.constraintFailure? policy base actual) =
      (node.keyFailure? policy base actual [k]).toList ++
        (actual.entry k).visits.filterMap
          ((node.resolveKey k).constraintFailure? policy (base ++ [k]) (actual.entry k)) := by
  obtain ⟨rest, hrest, hlater⟩ := (actual.entry k).exists_visits_eq_cons
  have hinside : (node.resolveKey k).constraintFailure? policy (base ++ [k]) (actual.entry k)
      (.enter []) = none := rfl
  have hkey : node.constraintFailure? policy base actual (Visit.below k (.enter [])) =
      node.keyFailure? policy base actual [k] := rfl
  have hbelow : rest.filterMap (node.constraintFailure? policy base actual ∘ (·.below k)) =
      rest.filterMap ((node.resolveKey k).constraintFailure? policy (base ++ [k])
        (actual.entry k)) :=
    List.filterMap_congr fun x hx =>
      node.constraintFailure?_below policy base actual k (hlater x hx)
  rw [hrest, List.filterMap_cons_none hinside, List.map_cons, List.filterMap_cons, hkey,
    List.filterMap_map, hbelow]
  cases node.keyFailure? policy base actual [k] <;> rfl

theorem hidesKey_cons {l : Location} (hl : l ≠ []) :
    node.hidesKey actual (k :: l) = (node.resolveKey k).hidesKey (actual.entry k) l := by
  obtain ⟨j, l, rfl⟩ := List.exists_cons_of_ne_nil hl
  rw [hidesKey, hidesKey, List.getLast?_cons_cons, List.dropLast_cons_cons, along_cons,
    Value.locate_cons]

theorem hidesAt_below {x : Visit} (hx : x ≠ .enter []) :
    node.hidesAt actual (x.below k) = (node.resolveKey k).hidesAt (actual.entry k) x := by
  cases x with
  | enter l => exact node.hidesKey_cons actual k fun hl => hx (congrArg _ hl)
  | leave l => rfl

/-- What cannot be written of the steps below a key: the key itself, or what cannot be written
inside its value. -/
theorem any_hidesAt_below :
    ((actual.entry k).visits.map (·.below k)).any (node.hidesAt actual) =
      (node.hidesKey actual [k] ||
        (actual.entry k).visits.any ((node.resolveKey k).hidesAt (actual.entry k))) := by
  obtain ⟨rest, hrest, hlater⟩ := (actual.entry k).exists_visits_eq_cons
  have hinside : (node.resolveKey k).hidesAt (actual.entry k) (.enter []) = false := rfl
  have hkey : node.hidesAt actual (Visit.below k (.enter [])) = node.hidesKey actual [k] := rfl
  have hbelow : rest.any (node.hidesAt actual ∘ (·.below k)) =
      rest.any ((node.resolveKey k).hidesAt (actual.entry k)) := by
    rw [Bool.eq_iff_iff, List.any_eq_true, List.any_eq_true]
    exact exists_congr fun x => and_congr_right fun hx => by
      rw [Function.comp_apply, node.hidesAt_below actual k (hlater x hx)]
  rw [hrest, List.map_cons, List.any_cons, List.any_cons, hkey, hinside, List.any_map, hbelow,
    Bool.false_or]

end Below

end Node

namespace Constraints

variable {policy : SnapshotPolicy} {base : Location} {node : Node} {actual : Value}

/-- Findings that hold the failures of the steps of a walk, and an obstacle where one of these
cannot be written. -/
structure Reports (policy : SnapshotPolicy) (base : Location) (node : Node) (actual : Value)
    (found : Findings) (walk : List Visit) : Prop where
  obstacle : found.obstacle = if walk.any (node.hidesAt actual) then some .longInteger else none
  failures : found.failures = walk.filterMap (node.constraintFailure? policy base actual)

theorem Reports.append {a b : Findings} {walk walk' : List Visit}
    (h : Reports policy base node actual a walk) (h' : Reports policy base node actual b walk') :
    Reports policy base node actual (a ++ b) (walk ++ walk') where
  obstacle := by
    rw [Findings.obstacle_append, h.obstacle, h'.obstacle, List.any_append]
    cases walk.any (node.hidesAt actual) <;> rfl
  failures := by
    rw [Findings.failures_append, h.failures, h'.failures, List.filterMap_append]

/-- Findings of a step alone. -/
theorem reports_singleton {found : Findings} {x : Visit}
    (hobstacle : found.obstacle = if node.hidesAt actual x then some .longInteger else none)
    (hfailures : found.failures = (node.constraintFailure? policy base actual x).toList) :
    Reports policy base node actual found [x] where
  obstacle := by
    rw [hobstacle, List.any_cons, List.any_nil, Bool.or_false]
  failures := by
    rw [hfailures]
    cases h : node.constraintFailure? policy base actual x <;> simp [h]

/-- Coming to the value itself is nothing to report. -/
theorem Reports.enter {found : Findings} {walk : List Visit}
    (h : Reports policy base node actual found walk) :
    Reports policy base node actual found (.enter [] :: walk) where
  obstacle := h.obstacle
  failures := by
    have hfirst : node.constraintFailure? policy base actual (.enter []) = none := rfl
    rw [List.filterMap_cons_none hfirst]
    exact h.failures

/-- A document that is checked along a walk, wherever it stands. -/
def Checked (policy : SnapshotPolicy) (v : Value) : Prop :=
  ∀ (base : Location) (node : Node), Location.obstacle? base = none →
    Reports policy base node v (check policy base node v) v.visits

/-- What is found about a key and inside its value reports the steps below the key. -/
theorem Reports.below {found : Findings} {k : Key} {v : Value} (hv : actual.entry k = v)
    (h : Reports policy (base ++ [k]) (node.resolveKey k) v found v.visits) {key : Findings}
    (hkey : key = ⟨(node.keyFailure? policy base actual [k]).toList,
      if node.hidesKey actual [k] then some .longInteger else none⟩) :
    Reports policy base node actual (key ++ found) (v.visits.map (·.below k)) := by
  subst hv hkey
  refine ⟨?_, ?_⟩
  · rw [Findings.obstacle_append, h.obstacle, node.any_hidesAt_below actual k]
    cases node.hidesKey actual [k] <;> rfl
  · rw [Findings.failures_append, h.failures,
      node.filterMap_constraintFailure?_below policy base actual k]

theorem checkKey_eq (hbase : Location.obstacle? base = none) (name : String) :
    checkKey policy (base ++ [.string name]) (node.resolveKey (.string name)) actual
        (.string name) =
      ⟨(node.keyFailure? policy base actual [.string name]).toList,
        if node.hidesKey actual [.string name] then some .longInteger else none⟩ := by
  have hkey : node.keyFailure? policy base actual [.string name] =
      if (node.resolveKey (.string name)).flag .keyMustBeAbsent then
        some ⟨base ++ [.string name], .keyPresent (.string name), none,
          Findings.shown policy (some (actual.snapshot policy.maxLength))⟩
      else none := rfl
  have hhides : node.hidesKey actual [.string name] =
      ((node.resolveKey (.string name)).flag .keyMustBeAbsent && actual.holdsLongInteger) := rfl
  rw [hkey, hhides, checkKey]
  split
  · next hflag =>
    have hnone : Findings.shown policy none = none := ite_self none
    refine congrArg₂ Findings.mk (by rw [hnone]; rfl) ?_
    rw [Findings.sideObstacle?_snapshot, Location.obstacle?_concat hbase rfl, hflag, Bool.true_and,
      Value.obstacle?]
    cases actual.holdsLongInteger <;> rfl
  · next hflag => rw [Bool.eq_false_iff.2 hflag]; rfl

theorem reports_checkMembers {members ms : List (Key × Value)}
    (hbase : Location.obstacle? base = none)
    (hms : ∀ m ∈ ms, (∃ s, m.1 = .string s) ∧ (Value.object members).entry m.1 = m.2 ∧
      Checked policy m.2) :
    Reports policy base node (.object members)
      (checkMembers policy base node (.object members) ms) (Value.memberVisits ms) := by
  induction ms with
  | nil => exact ⟨rfl, rfl⟩
  | cons m ms ih =>
    obtain ⟨k, v⟩ := m
    obtain ⟨⟨name, hname⟩, hentry, hchecked⟩ := hms (k, v) List.mem_cons_self
    obtain rfl : k = .string name := hname
    have hloc := Location.obstacle?_concat hbase (k := .string name) rfl
    exact ((hchecked _ _ hloc).below hentry (checkKey_eq hbase name)).append
      (ih fun m hm => hms m (List.mem_cons_of_mem _ hm))

theorem reports_checkItems {items vs : List Value} {i : Nat}
    (hbase : Location.obstacle? base = none) (hdrop : items.drop i = vs)
    (hvs : ∀ v ∈ vs, Checked policy v) :
    Reports policy base node (.array items) (checkItems policy base node i vs)
      (Value.itemVisits i vs) := by
  induction vs generalizing i with
  | nil => exact ⟨rfl, rfl⟩
  | cons v vs ih =>
    have hentry : (Value.array items).entry (.int i) = v := by
      rw [Value.entry_array, List.getD_eq_getElem?_getD, ← List.head?_drop, hdrop]; rfl
    have hrest : items.drop (i + 1) = vs := by rw [← List.tail_drop, hdrop]; rfl
    have hloc := Location.obstacle?_concat hbase (k := .int i) rfl
    -- an item has no key that could be reported
    have hkey : (∅ : Findings) = ⟨(node.keyFailure? policy base (.array items) [.int i]).toList,
        if node.hidesKey (.array items) [.int i] then some .longInteger else none⟩ := rfl
    have hitem := (hvs v List.mem_cons_self _ (node.resolveKey (.int i)) hloc).below hentry hkey
    exact hitem.append (ih hrest fun v hv => hvs v (List.mem_cons_of_mem _ hv))

/-- Leaving a collection, the walk counts it. -/
theorem reports_checkCount (hbase : Location.obstacle? base = none)
    (hc : actual.isCollection = true) :
    Reports policy base node actual (checkCount policy base node actual.size) [.leave []] := by
  cases hn : node.elementCount with
  | none =>
    refine reports_singleton ?_ ?_
    · simp [checkCount, Node.hidesAt, Node.hidesCount, hn]
    · simp [checkCount, Node.constraintFailure?, Node.countFailure?, hn]
  | some n =>
    by_cases heq : (actual.size : Int) = n
    · refine reports_singleton ?_ ?_
      · simp [checkCount, Node.hidesAt, Node.hidesCount, hn, heq]
      · simp [checkCount, Node.constraintFailure?, Node.countFailure?, hn, hc, heq]
    · refine reports_singleton ?_ ?_
      · have hhides : node.hidesAt actual (.leave []) = hasLongNumeral n := by
          simp [Node.hidesAt, Node.hidesCount, hn, hc, heq]
        have hcheck : checkCount policy base node actual.size =
            .report policy base .elementCountMismatch (some (countText n))
              (some (.ok s!"count: {actual.size}")) := by
          simp only [checkCount, hn, if_neg heq]
        rw [hcheck, hhides, Findings.obstacle_report, Findings.sideObstacle?_countText, hbase]
        cases hasLongNumeral n <;> rfl
      · simp [checkCount, Node.constraintFailure?, Node.countFailure?, hn, hc, heq]

/-- Leaving anything else, the walk reports that there is nothing to count. -/
theorem reports_countOfScalar (hbase : Location.obstacle? base = none)
    (hc : actual.isCollection = false) :
    Reports policy base node actual
      (if node.elementCount.isSome then .report policy base .countOfScalar none none else ∅)
      [.leave []] := by
  have hhides : node.hidesAt actual (.leave []) = false := by
    cases hn : node.elementCount <;> simp [Node.hidesAt, Node.hidesCount, hn, hc]
  have hnone : Findings.shown policy none = none := ite_self none
  cases hn : node.elementCount with
  | none =>
    refine reports_singleton (by simp [hhides]) ?_
    simp [Node.constraintFailure?, Node.countFailure?, hn]
  | some n =>
    refine reports_singleton ?_ ?_
    · simp [hhides, hbase, Findings.sideObstacle?]
    · simp [Node.constraintFailure?, Node.countFailure?, hn, hc, hnone]

/-- Documents are checked along a walk. -/
theorem checked_of_isDocument {v : Value} (h : v.IsDocument) : Checked policy v := by
  induction h with
  | null => exact fun _ _ hbase => (reports_countOfScalar hbase rfl).enter
  | bool b => exact fun _ _ hbase => (reports_countOfScalar hbase rfl).enter
  | int n => exact fun _ _ hbase => (reports_countOfScalar hbase rfl).enter
  | float x => exact fun _ _ hbase => (reports_countOfScalar hbase rfl).enter
  | string s => exact fun _ _ hbase => (reports_countOfScalar hbase rfl).enter
  | array _ ih =>
    intro base node hbase
    exact ((reports_checkItems (i := 0) hbase rfl ih).append (reports_checkCount hbase rfl)).enter
  | object strings distinct _ ih =>
    intro base node hbase
    refine ((reports_checkMembers hbase fun m hm => ⟨strings m hm, ?_, ih m hm⟩).append
      (reports_checkCount hbase rfl)).enter
    rw [Value.entry_object, findMember?_of_mem strings distinct hm]
    rfl

/-- A document is checked along a walk, to the first failure that cannot be written. -/
theorem check_eq (policy : SnapshotPolicy) (node : Node) {actual : Value}
    (hactual : actual.IsDocument) :
    check policy [] node actual =
      ⟨actual.visits.filterMap (node.constraintFailure? policy [] actual),
        if actual.visits.any (node.hidesAt actual) then some .longInteger else none⟩ := by
  have hchecked : Checked policy actual := checked_of_isDocument hactual
  have hreports := hchecked [] node rfl
  exact congrArg₂ Findings.mk hreports.failures hreports.obstacle

/-- Where no constraint is set along any location, nothing is found. -/
theorem check_of_unconstrained (hn : node.Unconstrained)
    (hactual : actual.IsDocument ∨ actual = .missing) : check policy [] node actual = ∅ := by
  obtain hactual | rfl := hactual
  · have hnone : actual.visits.any (node.hidesAt actual) = false := by
      refine List.any_eq_false.2 fun x _ => ?_
      cases x with
      | enter l =>
        rw [Node.hidesAt, Node.hidesKey, hn.key l]
        split <;> simp
      | leave l => simp [Node.hidesAt, Node.hidesCount, hn.count l]
    have hfailures : actual.visits.filterMap (node.constraintFailure? policy [] actual) = [] := by
      refine List.filterMap_eq_nil_iff.2 fun x _ => ?_
      cases x with
      | enter l =>
        rw [Node.constraintFailure?, Node.keyFailure?, hn.key l]
        split <;> rfl
      | leave l => rw [Node.constraintFailure?, Node.countFailure?, hn.count l]
    rw [check_eq policy node hactual, hnone, hfailures]
    rfl
  · rfl

end Constraints

/-! ## Integers of too many digits -/

/-- Whether a validation may have to write an integer of too many digits: one side holds one, or the
number of entries that is required somewhere is one and is not met. -/
def Node.facesLongInteger (node : Node) (expected actual : Value) : Bool :=
  expected.holdsLongInteger || actual.holdsLongInteger ||
    actual.locations.any (node.hidesCount actual)

section LongIntegers

variable {policy : SnapshotPolicy} {node : Node} {expected actual : Value}

theorem Node.facesLongInteger_eq_true :
    node.facesLongInteger expected actual = true ↔
      (expected.holdsLongInteger = true ∨ actual.holdsLongInteger = true) ∨
        actual.locations.any (node.hidesCount actual) = true := by
  simp only [facesLongInteger, Bool.or_eq_true]

theorem Node.holdsLongInteger_of_hidesKey {l : Location} (h : node.hidesKey actual l = true) :
    (actual.locate l.dropLast).holdsLongInteger = true := by
  unfold hidesKey at h
  split at h
  · exact (Bool.and_eq_true_iff.1 h).2
  · cases h

/-- A step of a walk that cannot be written has to write an integer of too many digits. -/
theorem Node.facesLongInteger_of_hidesAt (hactual : actual.IsDocument)
    (h : actual.visits.any (node.hidesAt actual) = true) :
    node.facesLongInteger expected actual = true := by
  obtain ⟨x, hx, hhides⟩ := List.any_eq_true.1 h
  refine facesLongInteger_eq_true.2 ?_
  cases x with
  | enter l =>
    have hholder := holdsLongInteger_of_hidesKey hhides
    exact .inl (.inr (Value.holdsLongInteger_of_locate hholder))
  | leave l =>
    have hl : l ∈ actual.locations := (Value.mem_visits_iff hactual).1 hx
    exact .inr (List.any_eq_true.2 ⟨l, hl, hhides⟩)

theorem longInteger_of_check (hactual : actual.IsDocument ∨ actual = .missing) {o : Obstacle}
    (h : (Constraints.check policy [] node actual).obstacle = some o) :
    o = .longInteger ∧ node.facesLongInteger expected actual = true := by
  obtain hactual | rfl := hactual
  · rw [Constraints.check_eq policy node hactual] at h
    cases hhides : actual.visits.any (node.hidesAt actual) with
    | true =>
      rw [hhides] at h
      exact ⟨(Option.some.inj h).symm, Node.facesLongInteger_of_hidesAt hactual hhides⟩
    | false =>
      rw [hhides] at h
      cases h
  · cases h

theorem longInteger_of_compare (hexpected : expected.IsDocument ∨ expected = .missing)
    {o : Obstacle} (h : (Comparison.compare policy [] node expected actual).obstacle = some o) :
    o = .longInteger ∧ node.facesLongInteger expected actual = true := by
  obtain hexpected | rfl := hexpected
  · obtain ⟨ho, hlong⟩ := Comparison.longInteger_of_obstacle hexpected rfl h
    exact ⟨ho, Node.facesLongInteger_eq_true.2 (.inl hlong)⟩
  · cases h

/-- A validation gives the failures of both walks, unless one of them has met an obstacle. -/
theorem validate_eq_ok_iff {r : Result} :
    validate policy node expected actual = .ok r ↔
      (findings policy node expected actual).obstacle = none ∧
        r = ⟨(findings policy node expected actual).failures⟩ := by
  rw [validate]
  cases (findings policy node expected actual).obstacle <;> simp [eq_comm]

theorem validate_eq_error_iff {o : Obstacle} :
    validate policy node expected actual = .error o ↔
      (findings policy node expected actual).obstacle = some o := by
  rw [validate]
  cases (findings policy node expected actual).obstacle <;> simp [eq_comm]

/-- Only an integer of too many digits keeps a validation of documents from its result. -/
theorem longInteger_of_validate (hexpected : expected.IsDocument ∨ expected = .missing)
    (hactual : actual.IsDocument ∨ actual = .missing) {o : Obstacle}
    (h : validate policy node expected actual = .error o) :
    o = .longInteger ∧ node.facesLongInteger expected actual = true := by
  have hfound := validate_eq_error_iff.1 h
  rw [findings, Findings.obstacle_append] at hfound
  rcases (Option.orElse_eq_some ..).1 hfound with hcheck | ⟨_, hcompare⟩
  · exact longInteger_of_check hactual hcheck
  · exact longInteger_of_compare hexpected hcompare

/-- Where no such integer has to be written, every validation of documents gives a result. -/
theorem exists_result (policy : SnapshotPolicy)
    (hexpected : expected.IsDocument ∨ expected = .missing)
    (hactual : actual.IsDocument ∨ actual = .missing)
    (hfaces : node.facesLongInteger expected actual = false) :
    ∃ r, validate policy node expected actual = .ok r := by
  cases h : validate policy node expected actual with
  | ok r => exact ⟨r, rfl⟩
  | error o =>
    have hlong := (longInteger_of_validate hexpected hactual h).2
    rw [hfaces] at hlong
    cases hlong

end LongIntegers

namespace Constraints

/-- **Constraints are exact.** A walk comes to all locations of the actual document in pre-order,
and each is left once it has been to all below. The constraints fail with the failures that the
steps of this walk give rise to, one each and in their order, whatever is expected; the failures of
the comparison follow. Only an integer of too many digits keeps a validation from this: one that
a failure would have to write. -/
theorem validate_eq (policy : SnapshotPolicy) (node : Node) {expected actual : Value}
    (hactual : actual.IsDocument) (hexpected : expected.IsDocument ∨ expected = .missing) :
    actual.visits.filterMap Visit.entered? = actual.locations ∧
      (∀ l ∈ actual.locations, Visit.Brackets l actual.visits) ∧
      check policy [] node actual =
        ⟨actual.visits.filterMap (node.constraintFailure? policy [] actual),
          if actual.visits.any (node.hidesAt actual) then some .longInteger else none⟩ ∧
      (∀ r, validate policy node expected actual = .ok r →
        actual.visits.any (node.hidesAt actual) = false ∧
          r.failures = actual.visits.filterMap (node.constraintFailure? policy [] actual) ++
            (Comparison.compare policy [] node expected actual).failures) ∧
      ∀ o, validate policy node expected actual = .error o →
        o = .longInteger ∧ node.facesLongInteger expected actual = true ∧
          (actual.visits.any (node.hidesAt actual) = true ∨
            (Comparison.compare policy [] node expected actual).obstacle = some .longInteger) := by
  have hcheck := check_eq policy node hactual
  refine ⟨Value.filterMap_entered?_visits hactual, fun l hl => hactual.brackets hl, hcheck,
    fun r hr => ?_, fun o ho => ?_⟩
  · obtain ⟨hobstacle, rfl⟩ := validate_eq_ok_iff.1 hr
    rw [findings, Findings.obstacle_append, hcheck] at hobstacle
    refine ⟨?_, by rw [findings, Findings.failures_append, hcheck]⟩
    cases hhides : actual.visits.any (node.hidesAt actual) with
    | false => rfl
    | true =>
      rw [hhides] at hobstacle
      cases hobstacle
  · obtain ⟨rfl, hfaces⟩ := longInteger_of_validate hexpected (.inl hactual) ho
    refine ⟨rfl, hfaces, ?_⟩
    have hobstacle := validate_eq_error_iff.1 ho
    rw [findings, Findings.obstacle_append, hcheck] at hobstacle
    cases hhides : actual.visits.any (node.hidesAt actual) with
    | true => exact .inl rfl
    | false =>
      rw [hhides] at hobstacle
      exact .inr hobstacle

/-- A forbidden key below an item below another forbidden key, whose value is miscounted after all
inside it; a count of something that is null; and a member that is missing. -/
theorem validate_eq_nested :
    let node := Node.configured [⟨.flag .keyMustBeAbsent true, ⟨[.key "a"]⟩, .singleNode⟩,
      ⟨.flag .keyMustBeAbsent true, ⟨[.key "a", .anyIndex, .key "b"]⟩, .singleNode⟩,
      ⟨.elementCount 2, ⟨[.key "a"]⟩, .singleNode⟩, ⟨.elementCount 0, ⟨[.key "c"]⟩, .singleNode⟩]
    let expected := Value.object [(.string "d", .int 1)]
    let actual := Value.object [(.string "a", .array [.object [(.string "b", .int 1)]]),
      (.string "c", .null)]
    actual.IsDocument ∧ expected.IsDocument ∧
      ∃ r, validate {} node expected actual = .ok r ∧
        r.failures.map (fun f => (f.keyPath, f.reason)) =
          [("a", .keyPresent (.string "a")), ("a[0].b", .keyPresent (.string "b")),
            ("a", .elementCountMismatch), ("c", .countOfScalar), ("d", .missing)] := by
  intro node expected actual
  have hactual : actual.IsDocument := by decide +kernel
  have hexpected : expected.IsDocument := by decide +kernel
  have hfaces : node.facesLongInteger expected actual = false := by decide +kernel
  obtain ⟨r, hr⟩ := exists_result {} (.inl hexpected) (.inl hactual) hfaces
  have hfailures := ((validate_eq {} node hactual (.inl hexpected)).2.2.2.1 r hr).2
  refine ⟨hactual, hexpected, r, hr, ?_⟩
  rw [hfailures]
  decide +kernel

theorem check_hidden_count {n : Int} (hlong : hasLongNumeral n = true) :
    (1 : Int) ≠ n ∧
      (check {} [] (Node.configured [⟨.elementCount n, .root, .singleNode⟩])
        (.array [.int 1])).obstacle = some .longInteger := by
  have hne : (1 : Int) ≠ n := fun h => Comparison.ne_one_of_hasLongNumeral hlong h.symm
  have hcount : (Node.configured [⟨.elementCount n, .root, .singleNode⟩]).elementCount = some n :=
    rfl
  have hitems : checkItems {} [] (Node.configured [⟨.elementCount n, .root, .singleNode⟩]) 0
      [.int 1] = ∅ := rfl
  have hlength : ¬ (([Value.int 1].length : Nat) : Int) = n := hne
  refine ⟨hne, ?_⟩
  rw [check, hitems, Findings.empty_append, checkCount, hcount]
  simp only [if_neg hlength]
  rw [Findings.obstacle_report, Findings.sideObstacle?_countText, hlong]
  rfl

/-- A required number of entries that is not met and too long to be written: its failure is found,
but no validation gives a result, whatever is expected. -/
theorem validate_long_count :
    let count : Int := ↑(Nat.pow 10 longestNumeral)
    let node := Node.configured [⟨.elementCount count, .root, .singleNode⟩]
    let actual := Value.array [.int 1]
    actual.IsDocument ∧ node.elementCount = some count ∧ (actual.size : Int) ≠ count ∧
      ∀ expected, validate {} node expected actual = .error .longInteger := by
  obtain ⟨i, hi, hlong⟩ := exists_hasLongNumeral
  rw [← hi]
  intro count node actual
  obtain ⟨hne, hcheck⟩ := check_hidden_count hlong
  refine ⟨by decide +kernel, rfl, hne, fun expected => validate_eq_error_iff.2 ?_⟩
  rw [findings, Findings.obstacle_append, hcheck]
  rfl

end Constraints

end JsonExpect
