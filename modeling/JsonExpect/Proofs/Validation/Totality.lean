import JsonExpect.Proofs.Validation.Constraints
import JsonExpect.Validation.Validate

/-!
# When a validation gives a result

A validation takes any two values, documents or not: missing ones, tuples, bytes, objects with names
of any kind. It gives a result where all names and integers can be written (`validate_total`); what
has no kind is a type mismatch, and no more than that. But a failure below a name that is neither a
string nor an integer has no written location, and an integer of too many digits has no numeral. The
one or the other keeps the validation from giving a result, even between two objects that hold
nothing else (`validate_null_name`).
-/

namespace JsonExpect

/-- Whether the numeral of a number of entries that is required somewhere in a value is too long. -/
def Node.requiresLongCount (node : Node) (actual : Value) : Bool :=
  actual.locations.any fun l => (node.along l).elementCount.any hasLongNumeral

/-- A value in which everything can be written: its locations, and the integers that snapshots of it
show. -/
structure Value.Writable (v : Value) : Prop where
  locations : ∀ l ∈ v.locations, ∀ k ∈ l, k.isWritable = true
  integers : v.holdsLongInteger = false

namespace Constraints

variable {policy : SnapshotPolicy} {base : Location} {node : Node} {cause : Obstacle → Prop}

/-- What can be an obstacle to testing the constraints on a value: a key on the way to one of its
locations, an integer of too many digits in it, or such a number of entries that is required. -/
def Hinders (node : Node) (actual : Value) (base : Location) (o : Obstacle) : Prop :=
  actual.Obstructs base o ∨ actual.obstacle? = some o ∨
    o = .longInteger ∧ node.requiresLongCount actual = true

/-- What hinders the test of an entry hinders that of the whole. -/
theorem Hinders.of_entry {actual : Value} {e : Key × Value} {o : Obstacle}
    (he : e ∈ actual.entries) (h : Hinders (node.resolveKey e.1) e.2 (base ++ [e.1]) o) :
    Hinders node actual base o := by
  obtain h | h | ⟨rfl, h⟩ := h
  · exact .inl (h.of_entry he)
  · obtain ⟨rfl, hlong⟩ := Value.obstacle?_eq_some_iff.1 h
    exact .inr (.inl (Value.obstacle?_eq_some_iff.2
      ⟨rfl, Value.holdsLongInteger_of_mem_entries he hlong⟩))
  · obtain ⟨l, hl, hlong⟩ := List.any_eq_true.1 h
    refine .inr (.inr ⟨rfl, List.any_eq_true.2 ⟨e.1 :: l, ?_, hlong⟩⟩)
    rw [Value.locations_eq]
    exact List.mem_cons_of_mem _ (List.mem_flatMap.2 ⟨e, he, List.mem_map_of_mem hl⟩)

theorem accounted_checkCount {count : Nat}
    (hbase : ∀ o, Location.obstacle? base = some o → cause o)
    (hlong : node.elementCount.any hasLongNumeral = true → cause .longInteger) :
    (checkCount policy base node count).Accounted cause := by
  unfold checkCount
  split
  · exact Findings.accounted_empty
  · next n hn =>
    split
    · exact Findings.accounted_empty
    · refine Findings.accounted_report (fun o ho => ?_) (fun o ho => ?_) hbase
      · rw [Findings.sideObstacle?_countText] at ho
        split at ho
        · next hn' =>
          obtain rfl := Option.some.inj ho
          exact hlong (by simp only [hn, Option.any_some, hn'])
        · cases ho
      · cases ho

theorem accounted_checkKey {holder : Value} {k : Key}
    (hholder : ∀ o, holder.obstacle? = some o → cause o)
    (hbase : ∀ o, Location.obstacle? base = some o → cause o) :
    (checkKey policy base node holder k).Accounted cause := by
  unfold checkKey
  split
  · refine Findings.accounted_report nofun ?_ hbase
    rwa [Findings.sideObstacle?_snapshot]
  · exact Findings.accounted_empty

theorem accounted_countOfScalar (hbase : ∀ o, Location.obstacle? base = some o → cause o) :
    (if node.elementCount.isSome then .report policy base .countOfScalar none none else ∅ :
      Findings).Accounted cause := by
  split
  · exact Findings.accounted_report nofun nofun hbase
  · exact Findings.accounted_empty

theorem accounted_checkMembers {holder : Value} {ms : List (Key × Value)}
    (hholder : ∀ o, holder.obstacle? = some o → cause o)
    (hnames : ∀ m ∈ ms, ∀ o, m.1.obstacle? = some o → cause o)
    (hkeys : ∀ m ∈ ms, ∀ o, Location.obstacle? (base ++ [m.1]) = some o → cause o)
    (hms : ∀ m ∈ ms, (check policy (base ++ [m.1]) (node.resolveKey m.1) m.2).Accounted cause) :
    (checkMembers policy base node holder ms).Accounted cause := by
  induction ms with
  | nil => exact Findings.accounted_empty
  | cons m ms ih =>
    obtain ⟨hname, hnames⟩ := List.forall_mem_cons.1 hnames
    obtain ⟨hkey, hkeys⟩ := List.forall_mem_cons.1 hkeys
    obtain ⟨hm, hms⟩ := List.forall_mem_cons.1 hms
    exact (((Findings.accounted_met hname).append (accounted_checkKey hholder hkey)).append
      hm).append (ih hnames hkeys hms)

theorem accounted_checkItems {vs : List Value} (i : Nat)
    (hvs : ∀ e ∈ vs.zipIdx i,
      (check policy (base ++ [.int ↑e.2]) (node.resolve (toString e.2)) e.1).Accounted cause) :
    (checkItems policy base node i vs).Accounted cause := by
  induction vs generalizing i with
  | nil => exact Findings.accounted_empty
  | cons v vs ih =>
    obtain ⟨hv, hvs⟩ := List.forall_mem_cons.1 hvs
    exact hv.append (ih (i + 1) hvs)

/-- Obstacles to the constraints stand in the actual value or on the ways to its locations, unless a
required number of entries is too long. -/
theorem accounted_check (actual : Value) (base : Location) (node : Node) :
    (check policy base node actual).Accounted (Hinders node actual base) := by
  induction actual using Value.entries_induction generalizing base node with
  | step actual ih =>
    have hbase : ∀ o, Location.obstacle? base = some o → Hinders node actual base o :=
      fun o ho => .inl (actual.obstructs_of_base ho)
    have hheld : ∀ o, actual.obstacle? = some o → Hinders node actual base o :=
      fun o ho => .inr (.inl ho)
    have hlong : node.elementCount.any hasLongNumeral = true →
        Hinders node actual base .longInteger := fun h =>
      .inr (.inr ⟨rfl, List.any_eq_true.2 ⟨[], actual.nil_mem_locations, h⟩⟩)
    have hentry : ∀ e ∈ actual.entries,
        (check policy (base ++ [e.1]) (node.resolveKey e.1) e.2).Accounted
          (Hinders node actual base) :=
      fun e he => (ih e he _ _).mono fun o => Hinders.of_entry he
    cases actual with
    | missing => exact Findings.accounted_empty
    | object members =>
      have hnames : ∀ m ∈ members, ∀ o, m.1.obstacle? = some o →
          Hinders node (.object members) base o := fun m hm o ho =>
        hheld o (Comparison.obstacle?_of_name hm ho)
      have hkeys : ∀ m ∈ members, ∀ o, Location.obstacle? (base ++ [m.1]) = some o →
          Hinders node (.object members) base o := fun m hm o ho =>
        .inl (Value.Obstructs.of_entry (e := m) hm (m.2.obstructs_of_base ho))
      exact (accounted_checkMembers hheld hnames hkeys hentry).append
        (accounted_checkCount hbase hlong)
    | array items =>
      have hitems : ∀ e ∈ items.zipIdx 0,
          (check policy (base ++ [.int ↑e.2]) (node.resolve (toString e.2)) e.1).Accounted
            (Hinders node (.array items) base) :=
        fun e he => hentry _ (List.mem_map_of_mem he)
      exact (accounted_checkItems 0 hitems).append (accounted_checkCount hbase hlong)
    | _ => exact accounted_countOfScalar hbase

end Constraints

variable {policy : SnapshotPolicy} {node : Node} {expected actual : Value}

theorem accounted_findings :
    (findings policy node expected actual).Accounted fun o =>
      Comparison.Impedes expected actual [] o ∨ Constraints.Hinders node actual [] o :=
  ((Constraints.accounted_check actual [] node).mono fun _ => .inr).append
    ((Comparison.accounted_compare expected [] node actual).mono fun _ => .inl)

/-- A validation without a result has met an obstacle on the way to a location, or an integer of too
many digits. -/
theorem cause_of_validate_eq_error {o : Obstacle}
    (h : validate policy node expected actual = .error o) :
    expected.Obstructs [] o ∨ actual.Obstructs [] o ∨
      o = .longInteger ∧ (expected.holdsLongInteger = true ∨ actual.holdsLongInteger = true ∨
        node.requiresLongCount actual = true) := by
  have haccounted : (findings policy node expected actual).Accounted _ := accounted_findings
  obtain (hway | hheld | hheld) | (hway | hheld | ⟨ho, hcount⟩) :=
    haccounted.obstacle o (validate_eq_error_iff.1 h)
  · exact .inl hway
  · exact .inr (.inr ((Value.obstacle?_eq_some_iff.1 hheld).imp_right .inl))
  · exact .inr (.inr ((Value.obstacle?_eq_some_iff.1 hheld).imp_right fun h => .inr (.inl h)))
  · exact .inr (.inl hway)
  · exact .inr (.inr ((Value.obstacle?_eq_some_iff.1 hheld).imp_right fun h => .inr (.inl h)))
  · exact .inr (.inr ⟨ho, .inr (.inr hcount)⟩)

end JsonExpect
