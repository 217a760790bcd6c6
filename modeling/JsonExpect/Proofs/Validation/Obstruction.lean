import JsonExpect.Proofs.Validation.Exactness

/-!
# What keeps failures from being written

A comparison meets an obstacle only on the way to a location of the expected value or where an
integer of too many digits stands on either side, and if it meets none, then every failure it
reports can be written (`Comparison.accounted_compare`). This is said of elements that are only
tried as well. The locations of a document are written from string names and indices alone, so a
comparison with a document meets no obstacle if neither side holds such an integer.
-/

namespace JsonExpect

/-- Whether an obstacle stands on the way to a location of a value that itself stands at `base`. -/
def Value.Obstructs (v : Value) (base : Location) (o : Obstacle) : Prop :=
  ∃ l ∈ v.locations, Location.obstacle? (base ++ l) = some o

namespace Value

variable {v : Value} {base : Location} {o : Obstacle}

theorem obstructs_of_base (v : Value) (h : Location.obstacle? base = some o) :
    v.Obstructs base o :=
  ⟨[], v.nil_mem_locations, by rwa [List.append_nil]⟩

/-- What stands on the way inside an entry stands on the way in the whole. -/
theorem Obstructs.of_entry {e : Key × Value} (he : e ∈ v.entries)
    (h : e.2.Obstructs (base ++ [e.1]) o) : v.Obstructs base o := by
  obtain ⟨l, hl, ho⟩ := h
  refine ⟨e.1 :: l, ?_, by rwa [List.append_assoc] at ho⟩
  rw [locations_eq]
  exact List.mem_cons_of_mem _ (List.mem_flatMap.2 ⟨e, he, List.mem_map_of_mem hl⟩)

/-- Nothing stands on ways that can be written. -/
theorem not_obstructs (h : ∀ l ∈ v.locations, ∀ k ∈ l, k.isWritable = true)
    (hbase : Location.obstacle? base = none) : ¬ v.Obstructs base o := by
  rintro ⟨l, hl, ho⟩
  have hnone : Location.obstacle? (base ++ l) = none :=
    Location.obstacle?_eq_none_iff.2
      (List.forall_mem_append.2 ⟨Location.obstacle?_eq_none_iff.1 hbase, h l hl⟩)
  rw [hnone] at ho
  cases ho

end Value

namespace Findings

/-- Findings whose obstacle has a cause, and which can be written where there is none. -/
structure Accounted (cause : Obstacle → Prop) (found : Findings) : Prop where
  obstacle : ∀ o, found.obstacle = some o → cause o
  failures : found.obstacle = none → ∀ f ∈ found.failures, Location.obstacle? f.location = none

variable {cause : Obstacle → Prop} {a b found : Findings}

theorem accounted_empty : (∅ : Findings).Accounted cause where
  obstacle := nofun
  failures := fun _ => List.forall_mem_nil _

theorem accounted_met {obstacle : Option Obstacle} (h : ∀ o, obstacle = some o → cause o) :
    (met obstacle).Accounted cause where
  obstacle := h
  failures := fun _ => List.forall_mem_nil _

/-- A failure is accounted for by what it shows and by where it is. -/
theorem accounted_report {policy : SnapshotPolicy} {location : Location} {reason : Reason}
    {expected actual : Option (Except Obstacle String)}
    (hexpected : ∀ o, sideObstacle? expected = some o → cause o)
    (hactual : ∀ o, sideObstacle? actual = some o → cause o)
    (h : ∀ o, Location.obstacle? location = some o → cause o) :
    (report policy location reason expected actual).Accounted cause where
  obstacle := by
    intro o ho
    rw [obstacle_report] at ho
    rcases (Option.orElse_eq_some ..).1 ho with ho | ⟨_, ho⟩
    · exact hexpected o ho
    · rcases (Option.orElse_eq_some ..).1 ho with ho | ⟨_, ho⟩
      · exact hactual o ho
      · exact h o ho
  failures := by
    intro hnone
    rw [obstacle_report] at hnone
    obtain ⟨_, hnone⟩ := (Option.orElse_eq_none ..).1 hnone
    exact List.forall_mem_singleton.2 ((Option.orElse_eq_none ..).1 hnone).2

theorem Accounted.append (ha : a.Accounted cause) (hb : b.Accounted cause) :
    (a ++ b).Accounted cause where
  obstacle := by
    intro o ho
    rcases (Option.orElse_eq_some ..).1 ho with ho | ⟨_, ho⟩
    · exact ha.obstacle o ho
    · exact hb.obstacle o ho
  failures := by
    intro hnone
    obtain ⟨hnone, hnone'⟩ := (Option.orElse_eq_none ..).1 hnone
    exact List.forall_mem_append.2 ⟨ha.failures hnone, hb.failures hnone'⟩

theorem Accounted.mono {cause' : Obstacle → Prop} (h : found.Accounted cause)
    (hcause : ∀ o, cause o → cause' o) : found.Accounted cause' where
  obstacle := fun o ho => hcause o (h.obstacle o ho)
  failures := h.failures

end Findings

namespace Comparison

/-! ## Comparisons -/

variable {policy : SnapshotPolicy} {base : Location} {node : Node} {cause : Obstacle → Prop}

/-- A failure that shows two values is accounted for by what stands in them and by where it is. -/
theorem accounted_side {reason : Reason} {expected actual : Value}
    (hexpected : ∀ o, expected.obstacle? = some o → cause o)
    (hactual : ∀ o, actual.obstacle? = some o → cause o)
    (hbase : ∀ o, Location.obstacle? base = some o → cause o) :
    (Findings.report policy base reason (some (reason.side policy.maxLength expected))
      (some (reason.side policy.maxLength actual))).Accounted cause := by
  apply Findings.accounted_report
  · rwa [Reason.sideObstacle?_side]
  · rwa [Reason.sideObstacle?_side]
  · exact hbase

theorem accounted_compareLeaf {expected actual : Value}
    (hexpected : ∀ o, expected.obstacle? = some o → cause o)
    (hactual : ∀ o, actual.obstacle? = some o → cause o)
    (hbase : ∀ o, Location.obstacle? base = some o → cause o) :
    (compareLeaf policy base node expected actual).Accounted cause := by
  have hreport : ∀ reason : Reason,
      (Findings.report policy base reason (some (reason.side policy.maxLength expected))
        (some (reason.side policy.maxLength actual))).Accounted cause := fun _ =>
    accounted_side hexpected hactual hbase
  unfold compareLeaf compareScalars
  split
  · exact hreport .missing
  · split
    · split
      · split
        · exact hreport .valueEqual
        · exact Findings.accounted_empty
      · split
        · exact hreport .valueMismatch
        · exact Findings.accounted_empty
    · exact hreport .typeMismatch

theorem accounted_countMismatch {reason : Reason} {m n : Nat} {expected actual : Value}
    (hexpected : ∀ o, expected.obstacle? = some o → cause o)
    (hactual : ∀ o, actual.obstacle? = some o → cause o)
    (hbase : ∀ o, Location.obstacle? base = some o → cause o) :
    (countMismatch policy base reason m n expected actual).Accounted cause := by
  apply Findings.accounted_report
  · rwa [Findings.sideObstacle?_countedSnapshot]
  · rwa [Findings.sideObstacle?_countedSnapshot]
  · exact hbase

theorem accounted_compareMembers {ms others : List (Key × Value)}
    (hkeys : ∀ m ∈ ms, ∀ o, m.1.obstacle? = some o → cause o)
    (hms : ∀ m ∈ ms, (compare policy (base ++ [m.1]) (node.resolveKey m.1) m.2
      ((findMember? m.1 others).getD .missing)).Accounted cause) :
    (compareMembers policy base node ms others).Accounted cause := by
  induction ms with
  | nil => exact Findings.accounted_empty
  | cons m ms ih =>
    obtain ⟨hkey, hkeys⟩ := List.forall_mem_cons.1 hkeys
    obtain ⟨hm, hms⟩ := List.forall_mem_cons.1 hms
    exact ((Findings.accounted_met hkey).append hm).append (ih hkeys hms)

theorem accounted_compareFixed {vs others : List Value} (i : Nat)
    (hvs : ∀ e ∈ vs.zipIdx i, ∀ actual, actual ∈ others ∨ actual = .missing →
      (compare policy (base ++ [.int ↑e.2]) (element node e.2) e.1 actual).Accounted cause) :
    (compareFixed policy base node i vs others).Accounted cause := by
  induction vs generalizing i others with
  | nil => exact Findings.accounted_empty
  | cons v vs ih =>
    obtain ⟨hv, hvs⟩ := List.forall_mem_cons.1 hvs
    have hhead : others.headD .missing ∈ others ∨ others.headD .missing = .missing := by
      cases others with
      | nil => exact .inr rfl
      | cons a others => exact .inl List.mem_cons_self
    refine Findings.Accounted.append ?_ (ih (i + 1) fun e he actual hactual => ?_)
    · split
      · exact Findings.accounted_empty
      · exact hv _ hhead
    · exact hvs e he actual (hactual.imp_left List.mem_of_mem_tail)

/-- An obstacle on the way to a match is met in one of the trials. -/
theorem exists_trial_of_takeFirst {trial : Value → Findings} {pool : List Value} {o : Obstacle}
    (h : (takeFirst trial pool).2 = some o) : ∃ a ∈ pool, (trial a).obstacle = some o := by
  induction pool with
  | nil => cases h
  | cons a pool ih =>
    unfold takeFirst at h
    simp only at h
    split at h
    · exact ⟨a, List.mem_cons_self, h⟩
    · rcases (Option.orElse_eq_some ..).1 h with h | ⟨_, h⟩
      · exact ⟨a, List.mem_cons_self, h⟩
      · obtain ⟨b, hb, hob⟩ := ih h
        exact ⟨b, List.mem_cons_of_mem _ hb, hob⟩

/-- Findings that are accounted for with every element of a pool are so as a trial. -/
theorem accounted_takeFirst {trial : Value → Findings} {pool : List Value}
    (h : ∀ a ∈ pool, (trial a).Accounted cause) :
    (Findings.met (takeFirst trial pool).2).Accounted cause :=
  Findings.accounted_met fun o ho => by
    obtain ⟨a, ha, ho⟩ := exists_trial_of_takeFirst ho
    exact (h a ha).obstacle o ho

/-- What is left of a pool once something is taken was in the pool. -/
theorem mem_of_takeFirst {trial : Value → Findings} {pool rest : List Value}
    (h : (takeFirst trial pool).1 = some rest) : ∀ a ∈ rest, a ∈ pool := by
  induction pool generalizing rest with
  | nil => cases h
  | cons a pool ih =>
    unfold takeFirst at h
    simp only at h
    split at h
    · obtain rfl := Option.some.inj h
      exact fun b hb => List.mem_cons_of_mem _ hb
    · obtain ⟨left, hleft, rfl⟩ := Option.map_eq_some_iff.1 h
      intro b hb
      rcases List.mem_cons.1 hb with rfl | hb
      · exact List.mem_cons_self
      · exact List.mem_cons_of_mem _ (ih hleft b hb)

/-- What keeps an item from being shown keeps the array. -/
theorem obstacle?_of_mem {items : List Value} {v : Value} {o : Obstacle} (hv : v ∈ items)
    (h : v.obstacle? = some o) : (Value.array items).obstacle? = some o := by
  obtain ⟨rfl, hlong⟩ := Value.obstacle?_eq_some_iff.1 h
  exact Value.obstacle?_eq_some_iff.2 ⟨rfl, Value.holdsLongInteger_of_mem hv hlong⟩

/-- What is met where a name is looked up keeps the object from being shown. -/
theorem obstacle?_of_name {members : List (Key × Value)} {m : Key × Value} {o : Obstacle}
    (hm : m ∈ members) (h : m.1.obstacle? = some o) :
    (Value.object members).obstacle? = some o := by
  obtain ⟨rfl, hlong⟩ := Key.obstacle?_eq_some_iff.1 h
  exact Value.obstacle?_eq_some_iff.2 ⟨rfl, Value.memberLongInteger_iff.2 ⟨m, hm, .inl hlong⟩⟩

/-- A pool is shown without an obstacle unless one stands in an element. -/
theorem obstacle?_array {items : List Value} {o : Obstacle}
    (h : (Value.array items).obstacle? = some o) : ∃ v ∈ items, v.obstacle? = some o := by
  obtain ⟨rfl, hlong⟩ := Value.obstacle?_eq_some_iff.1 h
  rw [Value.holdsLongInteger, Value.anyLongInteger_iff] at hlong
  obtain ⟨v, hv, hlong⟩ := hlong
  exact ⟨v, hv, Value.obstacle?_eq_some_iff.2 ⟨rfl, hlong⟩⟩

theorem accounted_compareFree {vs : List Value} (i : Nat) {pool : List Value}
    (hbase : ∀ o, Location.obstacle? base = some o → cause o)
    (hshown : ∀ v ∈ vs, ∀ o, v.obstacle? = some o → cause o)
    (hpool : ∀ a ∈ pool, ∀ o, a.obstacle? = some o → cause o)
    (hvs : ∀ e ∈ vs.zipIdx i, ∀ a ∈ pool,
      (compare policy (base ++ [.int ↑e.2]) (element node e.2) e.1 a).Accounted cause) :
    (compareFree policy base node i vs pool).Accounted cause := by
  induction vs generalizing i pool with
  | nil => exact Findings.accounted_empty
  | cons v vs ih =>
    obtain ⟨hv, hvs⟩ := List.forall_mem_cons.1 hvs
    obtain ⟨hshow, hshown⟩ := List.forall_mem_cons.1 hshown
    rw [compareFree]
    split
    · refine (accounted_takeFirst hv).append ?_
      split
      · next rest hrest =>
        have hin := mem_of_takeFirst hrest
        exact ih _ hshown (fun a ha => hpool a (hin a ha)) fun e he a ha => hvs e he a (hin a ha)
      · apply Findings.accounted_report
        · rwa [Findings.sideObstacle?_snapshot]
        · rw [Findings.sideObstacle?_map, Findings.sideObstacle?_snapshot]
          intro o ho
          obtain ⟨a, ha, ho⟩ := obstacle?_array ho
          exact hpool a ha o ho
        · exact hbase
    · exact ih _ hshown hpool hvs

theorem mem_of_mem_pool {n i : Nat} {others : List Value} :
    ∀ a ∈ pool node n i others, a ∈ others := by
  induction others generalizing n i with
  | nil => exact fun a ha => ha
  | cons w others ih =>
    intro a ha
    rw [pool] at ha
    split at ha
    · rcases List.mem_cons.1 ha with rfl | ha
      · exact List.mem_cons_self
      · exact List.mem_cons_of_mem _ (ih a ha)
    · exact List.mem_cons_of_mem _ (ih a ha)

/-- What can be an obstacle to a comparison: a key on the way to a location of the expected value,
or an integer of too many digits on either side. -/
def Impedes (expected actual : Value) (base : Location) (o : Obstacle) : Prop :=
  expected.Obstructs base o ∨ expected.obstacle? = some o ∨ actual.obstacle? = some o

/-- What impedes the comparison of entries impedes that of the wholes. -/
theorem Impedes.of_entry {expected actual part : Value} {e : Key × Value} {o : Obstacle}
    (he : e ∈ expected.entries)
    (hpart : part.holdsLongInteger = true → actual.holdsLongInteger = true)
    (h : Impedes e.2 part (base ++ [e.1]) o) : Impedes expected actual base o := by
  obtain h | h | h := h
  · exact .inl (h.of_entry he)
  · obtain ⟨rfl, hlong⟩ := Value.obstacle?_eq_some_iff.1 h
    exact .inr (.inl (Value.obstacle?_eq_some_iff.2
      ⟨rfl, Value.holdsLongInteger_of_mem_entries he hlong⟩))
  · obtain ⟨rfl, hlong⟩ := Value.obstacle?_eq_some_iff.1 h
    exact .inr (.inr (Value.obstacle?_eq_some_iff.2 ⟨rfl, hpart hlong⟩))

/-- Obstacles to a comparison stand on the ways to the locations of the expected value, or in the
values that are compared. -/
theorem accounted_compare (expected : Value) (base : Location) (node : Node) (actual : Value) :
    (compare policy base node expected actual).Accounted (Impedes expected actual base) := by
  induction expected using Value.entries_induction generalizing base node actual with
  | step expected ih =>
    have hbase : ∀ o, Location.obstacle? base = some o → Impedes expected actual base o :=
      fun o ho => .inl (expected.obstructs_of_base ho)
    have hexpected : ∀ o, expected.obstacle? = some o → Impedes expected actual base o :=
      fun o ho => .inr (.inl ho)
    have hactual : ∀ o, actual.obstacle? = some o → Impedes expected actual base o :=
      fun o ho => .inr (.inr ho)
    have hentry : ∀ e ∈ expected.entries, ∀ (node : Node) (part : Value),
        (part.holdsLongInteger = true → actual.holdsLongInteger = true) →
        (compare policy (base ++ [e.1]) node e.2 part).Accounted (Impedes expected actual base) :=
      fun e he node part hpart => (ih e he _ node part).mono fun o => Impedes.of_entry he hpart
    cases expected with
    | missing => exact Findings.accounted_empty
    | null => exact Findings.accounted_empty
    | object members =>
      cases actual with
      | object others =>
        rw [compare]
        split
        · exact accounted_countMismatch hexpected hactual hbase
        · exact accounted_compareMembers (fun m hm o ho => hexpected o (obstacle?_of_name hm ho))
            fun m hm => hentry m hm _ _ Value.holdsLongInteger_of_findMember?
      | _ => exact accounted_compareLeaf hexpected hactual hbase
    | array items =>
      cases actual with
      | array others =>
        have hitem : ∀ e ∈ items.zipIdx 0, ∀ actual, actual ∈ others ∨ actual = .missing →
            (compare policy (base ++ [.int ↑e.2]) (element node e.2) e.1 actual).Accounted
              (Impedes (.array items) (.array others) base) := by
          intro e he actual hactual
          refine hentry _ (List.mem_map_of_mem he) _ _ fun hlong => ?_
          obtain hactual | rfl := hactual
          · exact Value.holdsLongInteger_of_mem hactual hlong
          · exact absurd hlong Value.not_holdsLongInteger_missing
        rw [compare]
        split
        · exact accounted_countMismatch hexpected hactual hbase
        · refine (accounted_compareFixed 0 hitem).append (accounted_compareFree 0 hbase
            (fun v hv o ho => hexpected o ?_) (fun a ha o ho => hactual o ?_)
            fun e he a ha => hitem e he a (.inl (mem_of_mem_pool a ha)))
          · exact obstacle?_of_mem hv ho
          · exact obstacle?_of_mem (mem_of_mem_pool a ha) ho
      | _ => exact accounted_compareLeaf hexpected hactual hbase
    | _ => exact accounted_compareLeaf hexpected hactual hbase

/-- The one obstacle to a comparison with a document is an integer of too many digits. -/
theorem longInteger_of_obstacle {v actual : Value} (h : v.IsDocument)
    (hbase : Location.obstacle? base = none) {o : Obstacle}
    (ho : (compare policy base node v actual).obstacle = some o) :
    o = .longInteger ∧ (v.holdsLongInteger = true ∨ actual.holdsLongInteger = true) := by
  obtain hobstructs | hv | hactual := (accounted_compare v base node actual).obstacle o ho
  · exact absurd hobstructs (v.not_obstructs (fun _ => h.writable) hbase)
  · exact (Value.obstacle?_eq_some_iff.1 hv).imp_right .inl
  · exact (Value.obstacle?_eq_some_iff.1 hactual).imp_right .inr

/-! ## A trial that is refused -/

/-- An element that may match in any order is held against the first of the pool. If the two are
integers that differ and the expected one has too many digits, the failure of this trial cannot be
written, whatever the element would accept next. -/
theorem obstacle_of_refused_trial {n : Int} (hlong : hasLongNumeral n = true)
    {items others : List Value}
    (hcount : node.countViolation? (items.length + 1) (others.length + 1) = none)
    (hfixed :
      (compareFixed policy base node 0 (.int n :: items) (.int 1 :: others)).obstacle = none)
    (hfree : isFree node 0 = true) (hexact : (element node 0).flag .exactMatch = true)
    (hequal : (element node 0).flag .valueNotEqual = false) :
    (compare policy base node (.array (.int n :: items)) (.array (.int 1 :: others))).obstacle =
      some .longInteger := by
  have htrial : compare policy (base ++ [.int (0 : Nat)]) (element node 0) (.int n) (.int 1) =
      mismatch policy (base ++ [.int (0 : Nat)]) .valueMismatch (.int n) (.int 1) :=
    compare_int_of_ne (ne_one_of_hasLongNumeral hlong) hexact hequal
  have hobstacle : (compare policy (base ++ [.int (0 : Nat)]) (element node 0) (.int n)
      (.int 1)).obstacle = some .longInteger := by
    rw [htrial, obstacle_mismatch, obstacle?_int hlong]
    rfl
  have htake : ∀ rest, (takeFirst (compare policy (base ++ [.int (0 : Nat)]) (element node 0)
      (.int n) ·) (.int 1 :: rest)).2 = some .longInteger := by
    intro rest
    have hrefused : (compare policy (base ++ [.int (0 : Nat)]) (element node 0) (.int n)
        (.int 1)).failures.isEmpty = false := by
      rw [htrial]
      rfl
    rw [takeFirst]
    simp only [hrefused, hobstacle]
    rfl
  have hpool : ∃ rest, pool node (items.length + 1) 0 (.int 1 :: others) = .int 1 :: rest := by
    rw [pool, hfree, Bool.or_true, if_pos rfl]
    exact ⟨_, rfl⟩
  obtain ⟨rest, hrest⟩ := hpool
  rw [compare]
  simp only [List.length_cons, hcount, hrest]
  rw [Findings.obstacle_append, hfixed, compareFree, if_pos hfree]
  simp only [Findings.obstacle_append, Findings.obstacle_met, htake]
  rfl

end Comparison

end JsonExpect
