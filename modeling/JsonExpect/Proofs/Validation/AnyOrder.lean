import Mathlib.Data.List.Nodup
import JsonExpect.Proofs.Options.Log
import JsonExpect.Proofs.Validation.Obstruction

/-!
# Matching in any order

Two arrays are compared in two rounds. Elements at fixed positions are compared with what stands
there; each of the others, in turn, takes the lowest position left that it accepts. `Greedy` says
what such an assignment is, on indices and positions alone, and `assign` computes it.
`compare_arrays_greedy` says that a comparison reports the failures of the fixed positions and, if
the assignment stops early, one failure for the element at which it stops.
-/

namespace JsonExpect.Comparison

/-! ## Greedy assignments -/

/-- An assignment of positions to the first of the free elements, one each and in turn: each element
gets the lowest position that is left and that it accepts, and the first one that gets none accepts
none that is left. -/
structure Greedy (accepts : Nat → Nat → Bool) (free positions assigned : List Nat) : Prop where
  length_le : assigned.length ≤ free.length
  nodup : assigned.Nodup
  mem : ∀ j ∈ assigned, j ∈ positions
  chosen : ∀ k i j, free[k]? = some i → assigned[k]? = some j → accepts i j = true ∧
    ∀ p ∈ positions, p < j → p ∉ assigned.take k → accepts i p = false
  stuck : ∀ i, free[assigned.length]? = some i → ∀ p ∈ positions, p ∉ assigned → accepts i p = false

/-- The positions that free elements take one after the other, up to the first that finds none. -/
def assign (accepts : Nat → Nat → Bool) : List Nat → List Nat → List Nat
  | [], _ => []
  | i :: free, positions =>
    match positions.find? (accepts i) with
    | some j => j :: assign accepts free (positions.erase j)
    | none => []

section Greedy

variable {accepts : Nat → Nat → Bool}

/-- In ascending positions the first one accepted is the lowest one accepted. -/
theorem lowest_of_find? {p : Nat → Bool} {positions : List Nat} {j : Nat}
    (hpos : positions.Pairwise (· < ·)) (h : positions.find? p = some j) :
    ∀ q ∈ positions, q < j → p q = false := by
  obtain ⟨_, before, after, rfl, hbefore⟩ := List.find?_eq_some_iff_append.1 h
  intro q hq hlt
  rcases List.mem_append.1 hq with hq | hq
  · simpa using hbefore q hq
  · have hafter := (List.pairwise_append.1 hpos).2.1
    rcases List.mem_cons.1 hq with rfl | hq
    · omega
    · have := List.rel_of_pairwise_cons hafter hq
      omega

theorem greedy_assign (free : List Nat) {positions : List Nat} (hpos : positions.Pairwise (· < ·)) :
    Greedy accepts free positions (assign accepts free positions) := by
  induction free generalizing positions with
  | nil => exact ⟨Nat.le_refl _, List.nodup_nil, by simp [assign], by simp, by simp⟩
  | cons i free ih =>
    have hnodup : positions.Nodup := hpos.imp Nat.ne_of_lt
    unfold assign
    cases hfind : positions.find? (accepts i) with
    | none =>
      refine ⟨Nat.zero_le _, List.nodup_nil, by simp, by simp, ?_⟩
      intro i' hi' p hp _
      cases hi'
      simpa using List.find?_eq_none.1 hfind p hp
    | some j =>
      have g := ih (hpos.sublist (List.erase_sublist (a := j)))
      have hmem : ∀ p, p ∈ positions.erase j ↔ p ≠ j ∧ p ∈ positions := fun p =>
        hnodup.mem_erase_iff
      refine ⟨Nat.succ_le_succ g.length_le, ?_, ?_, ?_, ?_⟩
      · exact List.nodup_cons.2 ⟨fun hj => ((hmem j).1 (g.mem j hj)).1 rfl, g.nodup⟩
      · intro p hp
        rcases List.mem_cons.1 hp with rfl | hp
        · exact List.mem_of_find?_eq_some hfind
        · exact ((hmem p).1 (g.mem p hp)).2
      · intro k i' j' hi' hj'
        cases k with
        | zero =>
          cases hi'
          cases hj'
          exact ⟨List.find?_some hfind, fun p hp hlt _ => lowest_of_find? hpos hfind p hp hlt⟩
        | succ k =>
          obtain ⟨haccept, hlow⟩ := g.chosen k i' j' hi' hj'
          refine ⟨haccept, fun p hp hlt hnot => ?_⟩
          rw [List.take_succ_cons, List.mem_cons, not_or] at hnot
          exact hlow p ((hmem p).2 ⟨hnot.1, hp⟩) hlt hnot.2
      · intro i' hi' p hp hnot
        rw [List.mem_cons, not_or] at hnot
        exact g.stuck i' hi' p ((hmem p).2 ⟨hnot.1, hp⟩) hnot.2

end Greedy

/-! ## The two rounds of a comparison -/

section Arrays

variable (policy : SnapshotPolicy) (base : Location) (node : Node) (items others : List Value)

/-- The indices of the expected elements at fixed positions, of `n` elements. -/
def fixedIndices (n : Nat) : List Nat := (List.range n).filter fun i => !isFree node i

/-- The indices of the expected elements that may match in any order, of `n` elements. -/
def freeIndices (n : Nat) : List Nat := (List.range n).filter (isFree node)

/-- The positions of `m` actual elements that no fixed position among `n` uses. -/
def openPositions (n m : Nat) : List Nat := (List.range m).filter fun j => j ∉ fixedIndices node n

/-- The comparison of the expected element at an index with the actual one at a position, under the
configuration of the index. -/
def trial (i j : Nat) : Findings :=
  compare policy (base ++ [.int i]) (element node i) (items.getD i .missing)
    (others.getD j .missing)

/-- Whether the expected element at an index accepts the actual one at a position. -/
def accepts (i j : Nat) : Bool := (trial policy base node items others i j).failures.isEmpty

/-- The failure of an element that accepts none of the positions left. -/
def noMatch (i : Nat) (left : List Nat) : Failure where
  location := base
  reason := .noAnyOrderMatch ((element node i).flag .exactMatch)
  expected := Findings.shown policy (some ((items.getD i .missing).snapshot policy.maxLength))
  actual :=
    let remaining := Value.array (left.map (others.getD · .missing))
    Findings.shown policy (some ((remaining.snapshot policy.maxLength).map
      ("Remaining unmatched elements: " ++ ·)))

variable {policy base node items others}

theorem getD_of_drop {vs : List Value} {v : Value} {i : Nat} (h : items.drop i = v :: vs) :
    items.getD i .missing = v ∧ items.drop (i + 1) = vs := by
  refine ⟨?_, by rw [← List.tail_drop, h]; rfl⟩
  rw [List.getD_eq_getElem?_getD, ← List.head?_drop, h]; rfl

/-- The first round reports the failures of the fixed positions in ascending order. -/
theorem failures_compareFixed {vs : List Value} {i : Nat} (h : items.drop i = vs) :
    (compareFixed policy base node i vs (others.drop i)).failures =
      ((List.range' i vs.length).filter fun j => !isFree node j).flatMap fun j =>
        (trial policy base node items others j j).failures := by
  induction vs generalizing i with
  | nil => rfl
  | cons v vs ih =>
    obtain ⟨hv, hvs⟩ := getD_of_drop h
    have hw : (others.drop i).headD .missing = others.getD i .missing := by
      rw [List.getD_eq_getElem?_getD, ← List.head?_drop, List.headD_eq_head?_getD]
    rw [compareFixed, List.tail_drop, Findings.failures_append, ih hvs, hw, List.length_cons,
      List.range'_succ]
    cases hf : isFree node i with
    | true => rw [List.filter_cons_of_neg (by simp [hf])]; rfl
    | false =>
      rw [List.filter_cons_of_pos (by simp [hf]), List.flatMap_cons, trial, hv]
      rfl

/-- The pool holds what stands at the open positions. -/
theorem pool_eq {ws : List Value} {i : Nat} (n : Nat) (h : others.drop i = ws) :
    pool node (n - i) i ws =
      ((List.range' i ws.length).filter fun j => j ∉ fixedIndices node n).map
        (others.getD · .missing) := by
  induction ws generalizing i with
  | nil => rfl
  | cons w ws ih =>
    obtain ⟨hw, hws⟩ := getD_of_drop h
    have hopen : (n - i = 0 || isFree node i) = decide (i ∉ fixedIndices node n) := by
      cases hf : isFree node i <;> simp [fixedIndices, hf]; omega
    rw [pool, hopen, Nat.sub_sub, ih hws, List.length_cons, List.range'_succ]
    by_cases hi : i ∉ fixedIndices node n
    · rw [if_pos (by simpa using hi), List.filter_cons_of_pos (by simpa using hi),
        List.map_cons, hw]
    · rw [if_neg (by simpa using hi), List.filter_cons_of_neg (by simpa using hi)]

/-- Taking the first value that a trial accepts is taking the first position accepted. -/
theorem takeFirst_map (t : Value → Findings) (g : Nat → Value) (positions : List Nat) :
    (takeFirst t (positions.map g)).1 =
      (positions.find? fun j => (t (g j)).failures.isEmpty).map fun j =>
        (positions.erase j).map g := by
  induction positions with
  | nil => rfl
  | cons p positions ih =>
    rw [List.map_cons, takeFirst]
    simp only
    cases hp : (t (g p)).failures.isEmpty with
    | true => simp [hp]
    | false =>
      rw [List.find?_cons_of_neg (by simp [hp]), if_neg (by simp)]
      simp only [ih, Option.map_map]
      refine Option.map_congr fun j hj => ?_
      have hne : p ≠ j := by
        rintro rfl
        exact absurd (List.find?_some hj) (by simp [hp])
      rw [Function.comp_apply, List.erase_cons_tail (by simpa using hne), List.map_cons]

/-- What is left of the positions without `j` is what is left once `j` is assigned too. -/
theorem filter_erase {positions : List Nat} (h : positions.Nodup) (j : Nat) (assigned : List Nat) :
    (positions.erase j).filter (· ∉ assigned) = positions.filter (· ∉ j :: assigned) := by
  rw [h.erase_eq_filter, List.filter_filter]
  refine List.filter_congr fun p _ => ?_
  by_cases hp : p = j
  · simp [hp]
  · simp [hp]

/-- The second round follows the assignment, and reports where it stops. -/
theorem failures_compareFree {vs : List Value} {i : Nat} (h : items.drop i = vs)
    {positions : List Nat} (hpos : positions.Nodup) :
    let free := (List.range' i vs.length).filter (isFree node)
    let assigned := assign (accepts policy base node items others) free positions
    (compareFree policy base node i vs (positions.map (others.getD · .missing))).failures =
      (free[assigned.length]?.map fun k =>
        noMatch policy base node items others k (positions.filter (· ∉ assigned))).toList := by
  induction vs generalizing i positions with
  | nil => rfl
  | cons v vs ih =>
    obtain ⟨hv, hvs⟩ := getD_of_drop h
    rw [List.length_cons, List.range'_succ, compareFree]
    cases hf : isFree node i with
    | false =>
      rw [if_neg (by simp), List.filter_cons_of_neg (by simp [hf])]
      exact ih hvs hpos
    | true =>
      rw [if_pos rfl, List.filter_cons_of_pos hf]
      have htake := takeFirst_map (compare policy (base ++ [.int i]) (element node i) v ·)
        (others.getD · .missing) positions
      have haccept : (fun j => (compare policy (base ++ [.int i]) (element node i) v
          (others.getD j .missing)).failures.isEmpty) =
            accepts policy base node items others i := by
        funext j; rw [accepts, trial, hv]
      rw [haccept] at htake
      simp only [Findings.failures_append, Findings.failures_met, List.nil_append, htake]
      unfold assign
      cases hfind : positions.find? (accepts policy base node items others i) with
      | none =>
        have hall : positions.filter (· ∉ ([] : List Nat)) = positions :=
          List.filter_eq_self.2 (by simp)
        simp only [Option.map_none, List.length_nil, List.getElem?_cons_zero, Option.map_some,
          Option.toList_some, hall, noMatch, hv]
        rfl
      | some j =>
        simp only [Option.map_some, List.length_cons, List.getElem?_cons_succ]
        rw [ih hvs (hpos.erase j), filter_erase hpos]

/-- **Any order is greedy.** Of two arrays whose numbers of entries agree, the comparison reports
the failures of the fixed positions in ascending order, all of them within the actual array, and
after these at most one more: the free elements take open positions greedily, and if one of them
finds none, the first that does is reported together with what is left. Failures of trials are not
reported, but they are written: between documents, an integer of too many digits on either side can
keep the comparison from reporting, and nothing else. -/
theorem compare_arrays_greedy (policy : SnapshotPolicy) (base : Location) (node : Node)
    {items others : List Value} (hcount : node.agrees items.length others.length = true) :
    (∀ i ∈ fixedIndices node items.length, i < others.length) ∧
      (∃ assigned,
        Greedy (accepts policy base node items others) (freeIndices node items.length)
          (openPositions node items.length others.length) assigned ∧
        (compare policy base node (.array items) (.array others)).failures =
          ((fixedIndices node items.length).flatMap fun i =>
            (trial policy base node items others i i).failures) ++
          ((freeIndices node items.length)[assigned.length]?.map fun i =>
            noMatch policy base node items others i
              ((openPositions node items.length others.length).filter (· ∉ assigned))).toList) ∧
      ∀ o, (∀ v ∈ items, v.IsDocument) → Location.obstacle? base = none →
        (compare policy base node (.array items) (.array others)).obstacle = some o →
        o = .longInteger ∧ ((Value.array items).holdsLongInteger = true ∨
          (Value.array others).holdsLongInteger = true) := by
  have hle : items.length ≤ others.length := by
    unfold Node.agrees at hcount
    split at hcount
    · simp only [decide_eq_true_eq] at hcount; omega
    · simpa using hcount
  have hsorted : (openPositions node items.length others.length).Pairwise (· < ·) :=
    List.pairwise_lt_range.sublist List.filter_sublist
  refine ⟨fun i hi => ?_, ⟨_, greedy_assign _ hsorted, ?_⟩, fun o hdoc hbase => ?_⟩
  · have := List.mem_range.1 (List.mem_filter.1 hi).1
    omega
  · have hnone : node.countViolation? items.length others.length = none := by
      rw [Node.countViolation?_eq, if_pos hcount]
    have hfixed : (compareFixed policy base node 0 items others).failures = _ :=
      failures_compareFixed (i := 0) rfl
    have hpool : pool node items.length 0 others = _ := pool_eq (i := 0) items.length rfl
    have hfree : (compareFree policy base node 0 items ((openPositions node items.length
        others.length).map (others.getD · .missing))).failures = _ :=
      failures_compareFree (i := 0) rfl (hsorted.imp Nat.ne_of_lt)
    rw [← List.range_eq_range'] at hfixed hpool hfree
    rw [compare, hnone]
    simp only [Findings.failures_append]
    rw [hfixed, hpool]
    exact congrArg _ hfree
  · exact longInteger_of_obstacle (.array hdoc) hbase

/-- One fixed element that differs, and two free ones that want the same position. -/
theorem compare_arrays_greedy_contended :
    let node := Node.configured [⟨.flag .anyOrder true, ⟨[.anyIndex]⟩, .singleNode⟩,
      ⟨.flag .anyOrder false, ⟨[.index 0]⟩, .singleNode⟩]
    let items := [Value.int 1, .int 2, .int 2, .string "x"]
    let others := [Value.int 9, .int 2, .int 3, .string "x"]
    node.agrees items.length others.length = true ∧
      (∃ assigned, Greedy (accepts {} [] node items others) [1, 2, 3] [1, 2, 3] assigned ∧
        (compare {} [] node (.array items) (.array others)).failures =
          (trial {} [] node items others 0 0).failures ++
          ([1, 2, 3][assigned.length]?.map fun i =>
            noMatch {} [] node items others i ([1, 2, 3].filter (· ∉ assigned))).toList) ∧
      (compare {} [] node (.array items) (.array others)).failures.map
        (fun f => (f.keyPath, f.reason)) =
          [("[0]", .valueMismatch), ("", .noAnyOrderMatch true)] := by
  intro node items others
  have hcount : node.agrees items.length others.length = true := by decide +kernel
  have hfixed : fixedIndices node items.length = [0] := by decide +kernel
  have hfree : freeIndices node items.length = [1, 2, 3] := by decide +kernel
  have hopen : openPositions node items.length others.length = [1, 2, 3] := by decide +kernel
  obtain ⟨-, ⟨assigned, hgreedy, hfailures⟩, -⟩ := compare_arrays_greedy {} [] node hcount
  rw [hfree, hopen] at hgreedy
  rw [hfixed, hfree, hopen, List.flatMap_singleton] at hfailures
  exact ⟨hcount, ⟨assigned, hgreedy, hfailures⟩, by decide +kernel⟩

/-- An element that accepts the second of two positions. Trying the first, a failure would have to
show an integer of too many digits; so the comparison does not get to the second. -/
theorem compare_arrays_long_trial :
    ∃ (node : Node) (items others : List Value),
      node = .configured [⟨.flag .anyOrder true, ⟨[.anyIndex]⟩, .singleNode⟩] ∧
      items = [.int (Nat.pow 10 longestNumeral)] ∧ others = .int 1 :: items ∧
      node.agrees items.length others.length = true ∧ (∀ v ∈ items, v.IsDocument) ∧
      ∀ policy, accepts policy [] node items others 0 1 = true ∧
        (compare policy [] node (.array items) (.array others)).obstacle = some .longInteger := by
  obtain ⟨i, hi, hlong⟩ := exists_hasLongNumeral
  rw [← hi]
  refine ⟨_, _, _, rfl, rfl, rfl, rfl, List.forall_mem_singleton.2 (.int i), fun policy => ?_⟩
  generalize hnode : Node.configured [⟨.flag .anyOrder true, ⟨[.anyIndex]⟩, .singleNode⟩] = node
  have hfree : isFree node 0 = true := by subst hnode; rfl
  have hexact : (element node 0).flag .exactMatch = true := by subst hnode; rfl
  have hequal : (element node 0).flag .valueNotEqual = false := by subst hnode; rfl
  have hcount : node.countViolation? 1 2 = none := by subst hnode; rfl
  have hfixed : (compareFixed policy [] node 0 [.int i] [.int 1, .int i]).obstacle = none := by
    rw [compareFixed, if_pos hfree]
    rfl
  have hsecond : trial policy [] node [.int i] [.int 1, .int i] 0 1 = ∅ :=
    compare_int_self i hequal
  exact ⟨by rw [accepts, hsecond]; rfl,
    obstacle_of_refused_trial hlong hcount hfixed hfree hexact hequal⟩

end Arrays

end JsonExpect.Comparison
