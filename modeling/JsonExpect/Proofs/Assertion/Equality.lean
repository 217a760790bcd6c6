import JsonExpect.Assertion.Shorthand
import JsonExpect.Proofs.Assertion.Verdict
import JsonExpect.Proofs.Value.Canonical
import JsonExpect.Proofs.Yields

/-!
# Equality by assertion

Counting all collections makes a comparison one of equality, since each expected entry has to find
its own counterpart and none is left over. With any order everywhere it is equality up to the order
of items (`Assertion.decides_any_order_equal_count`), unless an item is tried in vain whose failure
cannot be written (`Assertion.verdict_long_integer`). In order it is what the shorthand for equality
runs (`Shorthand.run_equal_iff`). In the latter a null stays what it is in every comparison: it asks
for nothing, so a document with a null is met by more than its equals (`Shorthand.run_equal_null`).
-/

namespace JsonExpect

namespace Assertion

/-- The options of any order and equal counts everywhere. -/
def looseBundle : Bundle := { anyOrder := some true, equalCount := some true }

/-- **Unordered equality.** With any order and equal counts everywhere, called for in either order,
an assertion on documents decides, if nothing expected is null, whether these are the same up to the
order of items at every depth. -/
theorem decides_any_order_equal_count (policy : SnapshotPolicy) {expected actual : Value}
    (hexpected : expected.IsDocument) (hnull : expected.NullFree)
    (hactual : actual.IsDocument ∨ actual = .missing) {calls : List Directive}
    (hcalls : calls = [.scoped .anyOrder .subtree, .scoped .equalCount .subtree] ∨
      calls = [.scoped .equalCount .subtree, .scoped .anyOrder .subtree]) :
    Decides { expected, actual, policy } (calls.map fun d => (d, []))
      (Value.Same true expected actual) := by
  have hn : (Node.bare looseBundle).Unconstrained :=
    Node.unconstrained_of_bare rfl rfl rfl rfl rfl
  let bare : Assertion := ⟨expected, actual, .bare looseBundle, policy⟩
  have hbare : bare.Decides [] (Value.Same true expected actual) :=
    (decides_of_unconstrained bare hn hexpected hactual).congr
      (Comparison.accepts_iff_same rfl rfl rfl hexpected hnull hactual
        (Node.follows_bare looseBundle))
  refine Decides.of_options hbare ?_
  obtain rfl | rfl := hcalls
  · rfl
  · rfl

/-- Items of items in another order, and members too. -/
theorem decides_any_order_equal_count_nested :
    let expected := Value.array [.array [.int 1, .int 2], .array [.int 2, .int 3],
      .object [(.string "a", .bool true), (.string "b", .array [.string "x", .string "y"])]]
    let actual := Value.array [.array [.int 3, .int 2],
      .object [(.string "b", .array [.string "y", .string "x"]), (.string "a", .bool true)],
      .array [.int 2, .int 1]]
    expected.IsDocument ∧ expected.NullFree ∧ actual.IsDocument ∧
      ({ expected, actual } : Assertion).verdict
        [(.scoped .equalCount .subtree, []), (.scoped .anyOrder .subtree, [])] = .ok true ∧
      Value.Same true expected actual := by
  intro expected actual
  have hexpected : expected.IsDocument := by decide +kernel
  have hnull : expected.NullFree := by decide +kernel
  have hactual : actual.IsDocument := by decide +kernel
  have hdecides : Decides { expected, actual }
      [(.scoped .equalCount .subtree, []), (.scoped .anyOrder .subtree, [])]
      (Value.Same true expected actual) :=
    decides_any_order_equal_count {} hexpected hnull (.inl hactual) (.inr rfl)
  have htrue : ({ expected, actual } : Assertion).verdict
      [(.scoped .equalCount .subtree, []), (.scoped .anyOrder .subtree, [])] = .ok true :=
    eq_ok_of_toOption (by decide +kernel)
  exact ⟨hexpected, hnull, hactual, htrue, (hdecides.verdict _ htrue).1 rfl⟩

/-- The same two integers in another order. The first item has too many digits to be shown in the
failure of its first trial, so there is no verdict. -/
theorem verdict_long_integer :
    ∃ expected actual : Value,
      expected = .array [.int (Nat.pow 10 longestNumeral), .int 1] ∧
      actual = .array [.int 1, .int (Nat.pow 10 longestNumeral)] ∧
      expected.IsDocument ∧ expected.NullFree ∧ actual.IsDocument ∧
      Value.Same true expected actual ∧
      ∀ policy, ({ expected, actual, policy } : Assertion).verdict
        [(.scoped .anyOrder .subtree, []), (.scoped .equalCount .subtree, [])] =
          .error (.obstacle .longInteger) := by
  obtain ⟨i, hi, hlong⟩ := exists_hasLongNumeral
  rw [← hi]
  have hpair : ∀ j k : Int, (Value.array [.int j, .int k]).IsDocument := fun j k =>
    .array (List.forall_mem_cons.2 ⟨.int j, List.forall_mem_singleton.2 (.int k)⟩)
  have hnull : (Value.array [.int i, .int 1]).NullFree :=
    .array (List.forall_mem_cons.2 ⟨.int i, List.forall_mem_singleton.2 (.int 1)⟩)
  have hself : ∀ k : Int, Value.Same true (.int k) (.int k) := fun k =>
    .scalar (beq_self_eq_true k)
  have hsame : Value.Same true (.array [.int i, .int 1]) (.array [.int 1, .int i]) :=
    Value.same_array_loose_iff.2 ⟨_, .cons (hself i) (.cons (hself 1) .nil), .swap ..⟩
  refine ⟨_, _, rfl, rfl, hpair i 1, hnull, hpair 1 i, hsame, fun policy => ?_⟩
  have hn : (Node.bare looseBundle).Unconstrained :=
    Node.unconstrained_of_bare rfl rfl rfl rfl rfl
  have hobstacle : (Comparison.compare policy [] (.bare looseBundle) (.array [.int i, .int 1])
      (.array [.int 1, .int i])).obstacle = some .longInteger :=
    Comparison.obstacle_of_refused_trial hlong rfl rfl rfl rfl rfl
  exact verdict_of_obstacle ⟨_, _, .bare looseBundle, policy⟩ hn (hpair i 1) (.inl (hpair 1 i))
    hobstacle

end Assertion

/-! ## The shorthand -/

namespace Value

/-- A collection is taken as it stands; only a text is read. -/
theorem toCanonical_of_isCollection {v : Value} (h : v.IsDocument) (hc : v.isCollection = true) :
    v.toCanonical = .ok v := by
  apply toCanonical_of_isCanonical h.isCanonical
  · rintro hk
    rw [isCollection, hk] at hc
    cases hc
  · rintro hk
    rw [isCollection, hk] at hc
    cases hc

end Value

namespace Shorthand

/-- What the shorthand for equality passes on: equal counts everywhere. -/
def equalBundle : Bundle := { equalCount := some true }

variable {expected actual : Value}

theorem options_equal : options .equal = .bare equalBundle := rfl

/-- The shorthand for equality of two collections runs their comparison. -/
theorem run_equal_eq_compare (hexpected : expected.IsDocument) (hactual : actual.IsDocument)
    (hc : expected.isCollection = true) (hc' : actual.isCollection = true) :
    run .equal expected actual = compare .equal expected actual := by
  have hinputs : Assertion.ofInputs expected actual {} = .ok ⟨expected, actual, {}, {}⟩ := by
    rw [Assertion.ofInputs, Value.toCanonical_of_isCollection hexpected hc,
      Value.toCanonical_of_isCollection hactual hc']
    rfl
  rw [run, hinputs]
  simp only [hexpected.isMissing_eq_false, hactual.isMissing_eq_false]

/-- The shorthand for equality of two collections succeeds when their comparison accepts. -/
theorem run_equal_eq_ok_iff (hexpected : expected.IsDocument) (hactual : actual.IsDocument)
    (hc : expected.isCollection = true) (hc' : actual.isCollection = true) :
    run .equal expected actual = .ok () ↔
      Comparison.Accepts {} [] (.bare equalBundle) expected actual := by
  have hn : (Node.bare equalBundle).Unconstrained := Node.unconstrained_of_bare rfl rfl rfl rfl rfl
  have hkeeps : (Node.bare equalBundle).KeepsOrder expected :=
    Comparison.keepsOrder_of_follows (Node.follows_bare equalBundle) rfl expected
  have hvalidate :=
    Assertion.validate_of_isDocument ⟨expected, actual, .bare equalBundle, {}⟩ hexpected
  have hfindings : findings {} (.bare equalBundle) expected actual = _ :=
    Assertion.findings_of_unconstrained hn (.inl hactual)
  rw [run_equal_eq_compare hexpected hactual hc hc', compare, options_equal, hvalidate]
  constructor
  · intro hrun
    cases hresult : validate {} (.bare equalBundle) expected actual with
    | error o =>
      simp only [hresult] at hrun
      cases hrun
    | ok r =>
      have hvalid : r.isValid = true := by
        by_contra hinvalid
        simp only [hresult, if_neg hinvalid] at hrun
        cases hrun
      obtain ⟨-, rfl⟩ := validate_eq_ok_iff.1 hresult
      rw [hfindings] at hvalid
      exact List.isEmpty_iff.1 hvalid
  · intro haccepts
    -- order is kept, so nothing has been shown on the way
    have hempty := Comparison.compare_eq_empty hexpected hkeeps haccepts
    have hresult : validate {} (.bare equalBundle) expected actual = .ok ⟨[]⟩ :=
      validate_eq_ok_iff.2 (by rw [hfindings, hempty]; exact ⟨rfl, rfl⟩)
    simp only [hresult]
    rfl

/-- **Equality by shorthand.** Of two collections the shorthand for equality asks that the second
have what the first asks for and no more. It succeeds on all equal documents, and if nothing
expected is null, on no others. -/
theorem run_equal_iff (hexpected : expected.IsDocument) (hactual : actual.IsDocument)
    (hc : expected.isCollection = true) (hc' : actual.isCollection = true) :
    (run .equal expected actual = .ok () ↔ expected.MetBy true actual) ∧
      (Value.Same false expected actual → run .equal expected actual = .ok ()) ∧
      (expected.NullFree →
        (run .equal expected actual = .ok () ↔ Value.Same false expected actual)) := by
  have hfollows := Node.follows_bare equalBundle
  have hmet : run .equal expected actual = .ok () ↔ expected.MetBy true actual :=
    (run_equal_eq_ok_iff hexpected hactual hc hc').trans
      (Comparison.accepts_iff_metBy rfl rfl rfl hexpected hfollows)
  refine ⟨hmet, fun h => hmet.2 (h.metBy hexpected hactual), fun hnull => ?_⟩
  exact (run_equal_eq_ok_iff hexpected hactual hc hc').trans
    (Comparison.accepts_iff_same rfl rfl rfl hexpected hnull (.inl hactual) hfollows)

/-- The shorthand on the members `a` and `b` of equal documents, without a null. -/
theorem run_equal_iff_members :
    let item := Value.array [.int 1, .string "x"]
    let expected := Value.object [(.string "a", item), (.string "b", .bool true)]
    let actual := Value.object [(.string "b", .bool true), (.string "a", item)]
    expected.IsDocument ∧ actual.IsDocument ∧ expected.isCollection = true ∧
      actual.isCollection = true ∧ expected.NullFree ∧ run .equal expected actual = .ok () ∧
      Value.Same false expected actual := by
  intro item expected actual
  have hexpected : expected.IsDocument := by decide +kernel
  have hactual : actual.IsDocument := by decide +kernel
  have hnull : expected.NullFree := by decide +kernel
  obtain ⟨-, -, hsame⟩ := run_equal_iff hexpected hactual rfl rfl
  have hrun : run .equal expected actual = .ok () :=
    (run_equal_eq_ok_iff hexpected hactual rfl rfl).2 (by decide +kernel)
  exact ⟨hexpected, hactual, rfl, rfl, hnull, hrun, (hsame hnull).1 hrun⟩

/-- A null is met by anything: by another value of its member, and by nothing at all where another
member keeps the count. -/
theorem run_equal_null :
    let expected := Value.object [(.string "a", .null)]
    let actual := Value.object [(.string "a", .int 1)]
    let other := Value.object [(.string "b", .int 1)]
    expected.IsDocument ∧ actual.IsDocument ∧ other.IsDocument ∧
      run .equal expected actual = .ok () ∧ ¬ Value.Same false expected actual ∧
      run .equal expected other = .ok () ∧ ¬ Value.Same false expected other := by
  intro expected actual other
  have hexpected : expected.IsDocument := by decide +kernel
  have hactual : actual.IsDocument := by decide +kernel
  have hother : other.IsDocument := by decide +kernel
  refine ⟨hexpected, hactual, hother, (run_equal_eq_ok_iff hexpected hactual rfl rfl).2 rfl, ?_,
    (run_equal_eq_ok_iff hexpected hother rfl rfl).2 rfl, ?_⟩
  · intro h
    have hmember := ((Value.same_object_iff hexpected hactual).1 h).2 _ List.mem_cons_self
    have hkind : Value.null.kind? = (Value.int 1).kind? := hmember.kind?_eq
    cases hkind
  · intro h
    have hmember := ((Value.same_object_iff hexpected hother).1 h).2 _ List.mem_cons_self
    exact Value.not_same_missing .null hmember

end Shorthand

end JsonExpect
