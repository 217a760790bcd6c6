import JsonExpect.Proofs.Options.Log
import JsonExpect.Proofs.Validation.Violation
import JsonExpect.Proofs.Value.Walk

/-!
# Comparisons report the violations

Where no array element may match in any order, a comparison reports what violates the expected
document at the locations it reaches: nothing else, nothing twice, and in pre-order
(`compare_eq_violations`). The induction is on the expected document. What is found below a key is
what the key's location gives rise to in the whole (`Node.findingsAt_cons`), so the findings of the
members or items join to the findings of the collection.

A violation that shows an integer of too many digits keeps all of them from being reported, although
the document is expected and compared like any other (`compare_long_integer`).
-/

namespace JsonExpect

namespace Location

theorem obstacle?_concat {base : Location} (h : obstacle? base = none) {k : Key}
    (hk : k.isWritable = true) : obstacle? (base ++ [k]) = none := by
  unfold obstacle? at h ⊢
  rw [Option.map_eq_none_iff] at h ⊢
  rw [List.find?_append, h]
  simp [hk]

end Location

theorem Node.countViolation?_eq (node : Node) (m n : Nat) :
    node.countViolation? m n =
      if node.agrees m n then none
      else if node.flag .equalCount then some .countMismatch else some .tooFewEntries := by
  unfold Node.countViolation? Node.agrees
  by_cases h : node.flag .equalCount = true
  · simp [h]
  · simp only [h, Bool.false_eq_true, if_false, decide_eq_true_eq]
    by_cases hle : m ≤ n
    · rw [if_pos hle, if_neg (by omega)]
    · rw [if_neg hle, if_pos (by omega)]

namespace Comparison

variable {policy : SnapshotPolicy} {base : Location} {node : Node} {expected actual : Value}

/-- The findings that report a reason, or nothing. -/
def found (policy : SnapshotPolicy) (base : Location) (expected actual : Value) :
    Option Reason → Findings
  | some reason =>
    .report policy base reason (some (reason.side policy.maxLength expected))
      (some (reason.side policy.maxLength actual))
  | none => ∅

/-- At the front of all locations stands what the values as a whole violate. -/
theorem findingsAt_nil :
    node.findingsAt policy base expected actual [] =
      found policy base expected actual (node.violation? expected actual) := by
  unfold Node.findingsAt
  rw [Node.violationAt?_nil, List.append_nil]
  cases node.violation? expected actual <;> rfl

theorem compareScalars_eq :
    compareScalars policy base node expected actual =
      found policy base expected actual
        (if node.flag .valueNotEqual then
          if expected.sameScalar actual then some .valueEqual else none
        else if node.flag .exactMatch && !expected.sameScalar actual then some .valueMismatch
        else none) := by
  unfold compareScalars
  split
  · split <;> rfl
  · split <;> rfl

/-- An expected value that is no collection, or has no counterpart of its kind, is compared as a
whole. -/
theorem compareLeaf_eq (hk : expected.kind?.isSome) (hn : expected.isNull = false)
    (hc : expected.isCollection → expected.kind? ≠ actual.kind?) :
    compareLeaf policy base node expected actual =
      found policy base expected actual (node.violation? expected actual) := by
  have hm : expected.isMissing = false := by cases expected <;> first | rfl | cases hk
  unfold compareLeaf Node.violation?
  rw [hm, hn, hk, if_neg (by simp : ¬ (false || false) = true)]
  split
  · rfl
  · by_cases he : expected.kind? = actual.kind?
    · have hcoll : ¬ expected.isCollection = true := fun h => hc h he
      rw [if_pos (by simp [he]), if_neg (by simp [he]), if_neg hcoll]
      exact compareScalars_eq
    · rw [if_neg (by simp [he]), if_pos he]
      rfl

/-- The violations of an expected value against an actual one, as a comparison finds them. -/
def violations (policy : SnapshotPolicy) (base : Location) (node : Node) (expected actual : Value) :
    Findings :=
  .join (expected.locations.map (node.findingsAt policy base expected actual))

/-- A document whose comparison reports its violations, whatever it is compared with. -/
def Exact (policy : SnapshotPolicy) (expected : Value) : Prop :=
  ∀ (base : Location) (node : Node) (actual : Value), node.KeepsOrder expected →
    compare policy base node expected actual = violations policy base node expected actual

/-- The locations below a key yield what the value there yields on its own. -/
theorem join_findingsAt_below (h : node.enters expected actual = true) (k : Key) {v : Value}
    (hv : expected.entry k = v) :
    Findings.join ((v.locations.map (k :: ·)).map (node.findingsAt policy base expected actual)) =
      violations policy (base ++ [k]) (node.resolveKey k) v (actual.entry k) := by
  rw [List.map_map, violations, ← hv]
  exact congrArg Findings.join
    (List.map_congr_left fun l _ => Node.findingsAt_cons policy base node h k l)

/-- Order is kept below a key where it is kept in the whole. -/
theorem keepsOrder_below {k : Key} {v : Value}
    (h : ∀ l ∈ v.locations, (k :: l).getLast?.any Key.isIndex →
      (node.along (k :: l)).flag .anyOrder = false) : (node.resolveKey k).KeepsOrder v := by
  intro l hl hi
  cases l with
  | nil => cases hi
  | cons j l => exact h (j :: l) hl (by rwa [List.getLast?_cons_cons])

/-- The members of an object, each exact and found under its name, yield their violations. -/
theorem compareMembers_eq {members others ms : List (Key × Value)}
    (henters : node.enters (.object members) (.object others) = true)
    (hms : ∀ m ∈ ms,
      findMember? m.1 members = some m.2 ∧ m.1.obstacle? = none ∧ Exact policy m.2)
    (horder : ∀ l ∈ Value.memberLocations ms, l.getLast?.any Key.isIndex →
      (node.along l).flag .anyOrder = false) :
    compareMembers policy base node ms others =
      .join ((Value.memberLocations ms).map
        (node.findingsAt policy base (.object members) (.object others))) := by
  induction ms with
  | nil => rfl
  | cons m ms ih =>
    obtain ⟨k, v⟩ := m
    obtain ⟨hfind, hw, hexact⟩ := hms (k, v) List.mem_cons_self
    simp only [Value.memberLocations, List.mem_append] at horder
    have hbelow := keepsOrder_below fun l hl =>
      horder (k :: l) (.inl (List.mem_map.2 ⟨l, hl, rfl⟩))
    have hentry : (Value.object members).entry k = v := by rw [Value.entry_object, hfind]; rfl
    rw [compareMembers, show k.obstacle? = none from hw, Findings.met_none_append,
      hexact _ _ _ hbelow,
      ih (fun m hm => hms m (List.mem_cons_of_mem _ hm)) (fun l hl => horder l (.inr hl)),
      Value.memberLocations, List.map_append, Findings.join_append,
      join_findingsAt_below henters k hentry]
    rfl

theorem resolveKey_index (node : Node) (i : Nat) : node.resolveKey (.int i) = element node i := rfl

/-- The items of an array, each exact and at a fixed position, yield their violations. -/
theorem compareFixed_eq {items others vs : List Value} {i : Nat}
    (henters : node.enters (.array items) (.array others) = true)
    (hvs : items.drop i = vs) (hexact : ∀ v ∈ vs, Exact policy v)
    (horder : ∀ l ∈ Value.itemLocations i vs, l.getLast?.any Key.isIndex →
      (node.along l).flag .anyOrder = false) :
    compareFixed policy base node i vs (others.drop i) =
      .join ((Value.itemLocations i vs).map
        (node.findingsAt policy base (.array items) (.array others))) := by
  induction vs generalizing i with
  | nil => rfl
  | cons v vs ih =>
    simp only [Value.itemLocations, List.mem_append] at horder
    have hfixed : isFree node i = false :=
      horder [.int i] (.inl (List.mem_map.2 ⟨[], v.nil_mem_locations, rfl⟩)) rfl
    have hbelow := keepsOrder_below fun l hl =>
      horder (.int i :: l) (.inl (List.mem_map.2 ⟨l, hl, rfl⟩))
    have hentry : (Value.array items).entry (.int i) = v := by
      rw [Value.entry_array, List.getD_eq_getElem?_getD, ← List.head?_drop, hvs]; rfl
    have hactual : (others.drop i).headD .missing = (Value.array others).entry (.int i) := by
      rw [Value.entry_array, List.getD_eq_getElem?_getD, ← List.head?_drop,
        List.headD_eq_head?_getD]
    have hdrop : items.drop (i + 1) = vs := by rw [← List.tail_drop, hvs]; rfl
    rw [compareFixed, hfixed, if_neg (by simp), hactual, List.tail_drop, ← resolveKey_index,
      hexact v List.mem_cons_self _ _ _ hbelow,
      ih hdrop (fun v hv => hexact v (List.mem_cons_of_mem _ hv)) (fun l hl => horder l (.inr hl)),
      Value.itemLocations, List.map_append, Findings.join_append,
      join_findingsAt_below henters _ hentry]

/-- Nothing is looked for in a pool where all positions are fixed. -/
theorem compareFree_of_fixed (vs pool : List Value) (i : Nat)
    (h : ∀ j < vs.length, isFree node (i + j) = false) :
    compareFree policy base node i vs pool = ∅ := by
  induction vs generalizing i with
  | nil => rfl
  | cons v vs ih =>
    have hi : isFree node i = false := h 0 (by simp)
    rw [compareFree, hi, if_neg (by simp)]
    refine ih (i + 1) fun j hj => ?_
    rw [show i + 1 + j = i + (j + 1) by omega]
    exact h (j + 1) (by simpa using hj)

theorem index_mem_itemLocations (vs : List Value) (i j : Nat) (h : j < vs.length) :
    [.int ↑(i + j)] ∈ Value.itemLocations i vs := by
  induction vs generalizing i j with
  | nil => cases h
  | cons v vs ih =>
    rw [Value.itemLocations, List.mem_append]
    cases j with
    | zero => exact .inl (List.mem_map.2 ⟨[], v.nil_mem_locations, rfl⟩)
    | succ j =>
      refine .inr ?_
      rw [show i + (j + 1) = i + 1 + j by omega]
      exact ih (i + 1) j (by simpa using h)

/-- Where a comparison does not go into two values, only the values as a whole are compared. -/
theorem violations_of_not_enters (h : node.enters expected actual = false) :
    violations policy base node expected actual =
      found policy base expected actual (node.violation? expected actual) := by
  obtain ⟨ls, hl, hcons⟩ := expected.locations_eq_cons
  have hnone : Findings.join (ls.map (node.findingsAt policy base expected actual)) = ∅ := by
    refine Findings.join_of_forall_empty (List.forall_mem_map.2 fun l hm => ?_)
    obtain ⟨k, l', rfl⟩ := hcons l hm
    exact Node.findingsAt_cons_of_not_enters policy base node h k l'
  rw [violations, hl, List.map_cons, Findings.join_cons, hnone, findingsAt_nil,
    Findings.append_empty]

theorem present_of_isCollection (hc : expected.isCollection = true)
    (hk : expected.kind? = actual.kind?) :
    expected.isMissing = false ∧ expected.isNull = false ∧ actual.isMissing = false := by
  rw [Value.isCollection] at hc
  refine ⟨?_, ?_, ?_⟩
  · cases expected <;> first | rfl | simp [Value.kind?] at hc
  · cases expected <;> first | rfl | simp [Value.kind?] at hc
  · rw [hk] at hc
    cases actual <;> first | rfl | simp [Value.kind?] at hc

theorem enters_of_countViolation? (hc : expected.isCollection = true)
    (hk : expected.kind? = actual.kind?)
    (hr : node.countViolation? expected.size actual.size = none) :
    node.enters expected actual = true := by
  rw [Node.countViolation?_eq] at hr
  have hagree : node.agrees expected.size actual.size = true := by
    by_contra h
    rw [if_neg h] at hr
    split at hr <;> cases hr
  simp [Node.enters, hc, hk, hagree]

/-- Two collections of a kind that are not gone into differ in their numbers of entries. -/
theorem countMismatch_eq (hc : expected.isCollection = true) (hk : expected.kind? = actual.kind?)
    {r : Reason} (hr : node.countViolation? expected.size actual.size = some r) :
    countMismatch policy base r expected.size actual.size expected actual =
      violations policy base node expected actual := by
  obtain ⟨hm, hn, ha⟩ := present_of_isCollection hc hk
  rw [Node.countViolation?_eq] at hr
  have hagree : node.agrees expected.size actual.size = false := by
    by_contra h
    rw [if_pos (by simpa using h)] at hr
    cases hr
  rw [hagree, if_neg (by simp)] at hr
  have hv : node.violation? expected actual = some r := by
    simp only [Node.violation?, hm, hn, ha, hk, hc, hagree, hr, Bool.or_self, Bool.false_eq_true,
      if_false, if_true, ne_eq, not_true]
  rw [violations_of_not_enters (by rw [Node.enters, hagree, Bool.and_false]), hv]
  split at hr <;> cases hr <;> rfl

theorem violation?_of_enters (h : node.enters expected actual = true) :
    node.violation? expected actual = none := by
  simp only [Node.enters, Bool.and_eq_true, decide_eq_true_eq] at h
  obtain ⟨⟨hc, hk⟩, hagree⟩ := h
  obtain ⟨-, -, hm⟩ := present_of_isCollection hc hk
  simp only [Node.violation?, hc, hk, hagree, hm, if_true, ne_eq, not_true, if_false,
    Bool.false_eq_true, ite_self]

/-- Collections that are gone into violate nothing themselves. -/
theorem violations_of_enters (h : node.enters expected actual = true) {ls : List Location}
    (hl : expected.locations = [] :: ls) :
    violations policy base node expected actual =
      .join (ls.map (node.findingsAt policy base expected actual)) := by
  rw [violations, hl, List.map_cons, Findings.join_cons, findingsAt_nil, violation?_of_enters h]
  rfl

/-- A scalar is compared as a whole. -/
theorem exact_of_scalar {v : Value} (hk : v.kind?.isSome) (hn : v.isNull = false)
    (hc : v.isCollection = false)
    (hleaf : ∀ base node actual,
      compare policy base node v actual = compareLeaf policy base node v actual) :
    Exact policy v := by
  intro base node actual _
  rw [hleaf, compareLeaf_eq hk hn (by simp [hc]), violations_of_not_enters]
  rw [Node.enters, hc, Bool.false_and, Bool.false_and]

/-- A collection is not gone into when its counterpart is of another kind. -/
theorem compare_eq_compareLeaf (hc : expected.isCollection = true)
    (hk : expected.kind? ≠ actual.kind?) :
    compare policy base node expected actual = compareLeaf policy base node expected actual := by
  cases expected with
  | array items => cases actual <;> first | rfl | exact absurd rfl hk
  | object members => cases actual <;> first | rfl | exact absurd rfl hk
  | _ => cases hc

/-- A collection whose counterpart is of another kind is compared as a whole as well. -/
theorem compare_of_kind_ne (hc : expected.isCollection = true)
    (hk : expected.kind? ≠ actual.kind?) :
    compare policy base node expected actual = violations policy base node expected actual := by
  have hsome : expected.kind?.isSome ∧ expected.isNull = false := by
    cases expected <;> first | exact ⟨rfl, rfl⟩ | cases hc
  rw [compare_eq_compareLeaf hc hk, compareLeaf_eq hsome.1 hsome.2 fun _ => hk,
    violations_of_not_enters]
  simp [Node.enters, hk]

theorem exact_array {items : List Value} (h : ∀ v ∈ items, Exact policy v) :
    Exact policy (.array items) := by
  intro base node actual horder
  by_cases hk : (Value.array items).kind? = actual.kind?
  · obtain ⟨others, rfl⟩ : ∃ others, actual = .array others := by
      cases actual <;> first | exact ⟨_, rfl⟩ | cases hk
    rw [compare]
    split
    · next r hr => exact countMismatch_eq rfl hk hr
    · next hr =>
      have he := enters_of_countViolation? rfl hk hr
      have hfree : ∀ j < items.length, isFree node (0 + j) = false := fun j hj =>
        horder _ (List.mem_cons_of_mem _ (index_mem_itemLocations items 0 j hj)) rfl
      have hfixed : compareFixed policy base node 0 items others =
          .join ((Value.itemLocations 0 items).map
            (node.findingsAt policy base (.array items) (.array others))) :=
        compareFixed_eq (i := 0) he rfl h fun l hl => horder l (List.mem_cons_of_mem _ hl)
      rw [hfixed, compareFree_of_fixed items _ 0 hfree, violations_of_enters he rfl,
        Findings.append_empty]
  · exact compare_of_kind_ne rfl hk

theorem exact_object {members : List (Key × Value)} (strings : ∀ m ∈ members, ∃ s, m.1 = .string s)
    (distinct : (members.map Prod.fst).Nodup) (h : ∀ m ∈ members, Exact policy m.2) :
    Exact policy (.object members) := by
  intro base node actual horder
  by_cases hk : (Value.object members).kind? = actual.kind?
  · obtain ⟨others, rfl⟩ : ∃ others, actual = .object others := by
      cases actual <;> first | exact ⟨_, rfl⟩ | cases hk
    rw [compare]
    split
    · next r hr => exact countMismatch_eq rfl hk hr
    · next hr =>
      have he := enters_of_countViolation? rfl hk hr
      have hms : ∀ m ∈ members,
          findMember? m.1 members = some m.2 ∧ m.1.obstacle? = none ∧ Exact policy m.2 := by
        intro m hm
        obtain ⟨s, hs⟩ := strings m hm
        exact ⟨findMember?_of_mem strings distinct hm, by rw [hs]; rfl, h m hm⟩
      rw [compareMembers_eq he hms fun l hl => horder l (List.mem_cons_of_mem _ hl),
        violations_of_enters he rfl]
  · exact compare_of_kind_ne rfl hk

/-- Documents are compared exactly. -/
theorem exact_of_isDocument {v : Value} (h : v.IsDocument) : Exact policy v := by
  induction h with
  | null => intro _ _ _ _; rw [violations_of_not_enters rfl]; rfl
  | bool b => exact exact_of_scalar rfl rfl rfl fun _ _ _ => rfl
  | int n => exact exact_of_scalar rfl rfl rfl fun _ _ _ => rfl
  | float x => exact exact_of_scalar rfl rfl rfl fun _ _ _ => rfl
  | string s => exact exact_of_scalar rfl rfl rfl fun _ _ _ => rfl
  | array _ ih => exact exact_array ih
  | object strings distinct _ ih => exact exact_object strings distinct ih

/-- Where order is kept, a comparison that reports nothing has shown nothing. -/
theorem compare_eq_empty (hdoc : expected.IsDocument) (horder : node.KeepsOrder expected)
    (h : (compare policy [] node expected actual).failures = []) :
    compare policy [] node expected actual = ∅ := by
  have hexact : Exact policy expected := exact_of_isDocument hdoc
  rw [hexact [] node actual horder, violations] at h ⊢
  refine Findings.join_of_forall_empty (List.forall_mem_map.2 fun l hl => ?_)
  have hnone : (node.findingsAt policy [] expected actual l).failures = [] :=
    List.flatMap_eq_nil_iff.1 h _ (List.mem_map_of_mem hl)
  unfold Node.findingsAt at hnone ⊢
  split at hnone
  · cases hnone
  · rfl

/-- What is found at a location that can be written: the failure for what it violates, kept from
being written by what stands there on either side. -/
theorem findingsAt_eq {l : Location} (hl : Location.obstacle? l = none) :
    node.findingsAt policy [] expected actual l =
      ⟨((node.violationAt? expected actual l).map fun reason =>
          reason.failure policy l (expected.locate l) (actual.locate l)).toList,
        (node.violationAt? expected actual l).bind fun _ =>
          (expected.locate l).obstacle? <|> (actual.locate l).obstacle?⟩ := by
  unfold Node.findingsAt
  cases node.violationAt? expected actual l with
  | none => rfl
  | some reason =>
    refine congrArg₂ Findings.mk rfl ?_
    rw [Reason.sideObstacle?_side, Reason.sideObstacle?_side, List.nil_append, hl,
      Option.bind_some]
    cases (expected.locate l).obstacle? <;> cases (actual.locate l).obstacle? <;> rfl

/-- The failures and the first obstacle at locations that can all be written. -/
theorem join_findingsAt {ls : List Location} (hls : ∀ l ∈ ls, Location.obstacle? l = none) :
    Findings.join (ls.map (node.findingsAt policy [] expected actual)) =
      ⟨ls.filterMap fun l => (node.violationAt? expected actual l).map fun reason =>
          reason.failure policy l (expected.locate l) (actual.locate l),
        ls.findSome? fun l => (node.violationAt? expected actual l).bind fun _ =>
          (expected.locate l).obstacle? <|> (actual.locate l).obstacle?⟩ := by
  induction ls with
  | nil => rfl
  | cons l ls ih =>
    obtain ⟨hl, hls⟩ := List.forall_mem_cons.1 hls
    rw [List.map_cons, Findings.join_cons, ih hls, findingsAt_eq hl]
    refine congrArg₂ Findings.mk ?_ ?_
    · rw [List.filterMap_cons]
      cases node.violationAt? expected actual l <;> rfl
    · rw [List.findSome?_cons]
      generalize (node.violationAt? expected actual l).bind _ = obstacle
      cases obstacle <;> rfl

/-- **Comparisons are exact.** Where no array element of the expected document may match in any
order, the comparison reports one failure for each location that it reaches and where the expected
value is violated, in pre-order. What keeps it from doing so is the first of these locations where
an integer of too many digits stands on either side. -/
theorem compare_eq_violations (policy : SnapshotPolicy) (node : Node) {expected : Value}
    (actual : Value) (hdoc : expected.IsDocument ∨ expected = .missing)
    (horder : node.KeepsOrder expected) :
    expected.locations.Nodup ∧
      compare policy [] node expected actual =
        ⟨expected.locations.filterMap fun l =>
            (node.violationAt? expected actual l).map fun reason =>
              reason.failure policy l (expected.locate l) (actual.locate l),
          expected.locations.findSome? fun l =>
            (node.violationAt? expected actual l).bind fun _ =>
              (expected.locate l).obstacle? <|> (actual.locate l).obstacle?⟩ := by
  obtain hdoc | rfl := hdoc
  · have hwritten : ∀ l ∈ expected.locations, Location.obstacle? l = none := fun l hl =>
      Location.obstacle?_eq_none_iff.2 (hdoc.writable hl)
    have hexact : Exact policy expected := exact_of_isDocument hdoc
    exact ⟨hdoc.nodup_locations, (hexact [] node actual horder).trans (join_findingsAt hwritten)⟩
  · exact ⟨List.nodup_singleton [], rfl⟩

/-- Inside an array that is compared by types, behind a null, and at an array whose number of
entries must agree. -/
theorem compare_eq_violations_mixed :
    let node := Node.configured [⟨.flag .equalCount true, .root, .subtree⟩,
      ⟨.flag .exactMatch false, ⟨[.key "a"]⟩, .subtree⟩]
    let expected := Value.object [(.string "a", .array [.int 1, .null, .string "s"]),
      (.string "b", .bool true), (.string "c", .array [.int 1])]
    let actual := Value.object [(.string "a", .array [.int 2, .int 3, .int 4]),
      (.string "c", .array []), (.string "b", .bool false)]
    (expected.IsDocument ∨ expected = .missing) ∧ node.KeepsOrder expected ∧
      (compare {} [] node expected actual).obstacle = none ∧
      (compare {} [] node expected actual).failures.map (fun f => (f.keyPath, f.reason)) =
        [("a[2]", .typeMismatch), ("b", .valueMismatch), ("c", .countMismatch)] := by
  intro node expected actual
  have hdoc : expected.IsDocument := by decide +kernel
  have horder : node.KeepsOrder expected := by
    unfold Node.KeepsOrder
    decide +kernel
  refine ⟨.inl hdoc, horder, ?_⟩
  rw [(compare_eq_violations {} node actual (.inl hdoc) horder).2]
  decide +kernel

/-- Different integers are a mismatch where values must be equal. -/
theorem compare_int_of_ne {m n : Int} (h : m ≠ n) (hexact : node.flag .exactMatch = true)
    (hequal : node.flag .valueNotEqual = false) :
    compare policy base node (.int m) (.int n) =
      mismatch policy base .valueMismatch (.int m) (.int n) := by
  have hleaf : compare policy base node (.int m) (.int n) =
      compareScalars policy base node (.int m) (.int n) := rfl
  have hdiffer : (Value.int m).sameScalar (.int n) = false := beq_false_of_ne h
  rw [hleaf, compareScalars, hequal, hexact, hdiffer]
  rfl

/-- An integer is no failure against itself, unless values must differ. -/
theorem compare_int_self (n : Int) (hequal : node.flag .valueNotEqual = false) :
    compare policy base node (.int n) (.int n) = ∅ := by
  have hleaf : compare policy base node (.int n) (.int n) =
      compareScalars policy base node (.int n) (.int n) := rfl
  have hsame : (Value.int n).sameScalar (.int n) = true := beq_self_eq_true n
  rw [hleaf, compareScalars, hequal, hsame]
  cases node.flag .exactMatch <;> rfl

/-- Both sides of a mismatch are shown, whatever the policy then lets through. -/
theorem obstacle_mismatch (reason : Reason) :
    (mismatch policy base reason expected actual).obstacle =
      (expected.obstacle? <|> actual.obstacle? <|> Location.obstacle? base) := by
  rw [mismatch, Findings.obstacle_report, Findings.sideObstacle?_snapshot,
    Findings.sideObstacle?_snapshot]

theorem ne_one_of_hasLongNumeral {n : Int} (h : hasLongNumeral n = true) : n ≠ 1 := by
  rintro rfl
  exact absurd h (by decide +kernel)

theorem obstacle?_int {n : Int} (h : hasLongNumeral n = true) :
    (Value.int n).obstacle? = some .longInteger :=
  Value.obstacle?_eq_some_iff.2 ⟨rfl, h⟩

/-- An integer of too many digits that does not match: under every policy the one violation is kept
from being reported. -/
theorem compare_long_integer :
    ∃ expected actual : Value, expected = .int (Nat.pow 10 longestNumeral) ∧ actual = .int 1 ∧
      expected.IsDocument ∧ actual.IsDocument ∧ ({} : Node).KeepsOrder expected ∧
        ∀ policy, (compare policy [] {} expected actual).obstacle = some .longInteger := by
  obtain ⟨i, hi, hlong⟩ := exists_hasLongNumeral
  rw [← hi]
  have horder : ({} : Node).KeepsOrder (.int i) := by
    intro l hl hi
    obtain rfl : l = [] := List.mem_singleton.1 hl
    cases hi
  refine ⟨_, _, rfl, rfl, .int i, .int 1, horder, fun policy => ?_⟩
  rw [compare_int_of_ne (ne_one_of_hasLongNumeral hlong) rfl rfl, obstacle_mismatch,
    obstacle?_int hlong]
  rfl

end Comparison

end JsonExpect
