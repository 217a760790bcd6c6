import JsonExpect.Proofs.Case.Outcome
import JsonExpect.Proofs.Rule.Format

/-!
# Verdicts of cases

A case that is `WellFormed` is decided by a comparison: the part that is picked from what is given
is held against what is expected, under the shared rules and then those of the case, and the case
passes if this comes out as the case says it should. Any other case is refused and does not pass,
even if it is meant to fail (`Case.outcome_verdict`). Which part is picked is up to the library of
selectors: it is the value of the first match.

An integer in too many digits keeps a case from its verdict where it has to be shown. A shared rule
may require a number of entries in so many digits, and then a case that does not meet it is not
decided (`Case.outcome_long_count`).
-/

namespace JsonExpect

/-- No path of a rule has an index in too many digits. -/
def Rule.ShortIndices (r : Rule) : Prop := ∀ e, r.Unreadable e → ¬ e.IsLongIndex

namespace Case

section Library

variable (lib : SelectorLibrary)

/-- The members of an object write a case: a truth value, if any, says whether it is meant to pass,
null or a selector, if any, stands with what it picks from, and the rules can be read. -/
structure WellFormed (members : List (Key × Value)) : Prop where
  verdict : ∀ v, findMember? (.string "expect_pass") members = some v → ∃ b, v = .bool b
  selector : ∀ actual path, findMember? (.string "actual") members = some actual →
    findMember? (.string "actual_path") members = some path →
      path = .null ∨ ∃ text s, path = .string text ∧ lib.compile text = .ok s
  rules : ∃ rules, Rule.parseAll (rulesGiven members) = .ok rules

/-- The actual side of a case. -/
inductive Picks (members : List (Key × Value)) : Value → Prop where
  | absent (given : findMember? (.string "actual") members = none) : Picks members .missing
  | whole {actual : Value} (given : findMember? (.string "actual") members = some actual)
      (path : (findMember? (.string "actual_path") members).getD .null = .null) :
      Picks members actual
  | first {actual picked : Value} {text : String} {s : lib.Compiled} {m : lib.Match}
      {rest : List lib.Match} (given : findMember? (.string "actual") members = some actual)
      (path : findMember? (.string "actual_path") members = some (.string text))
      (compile : lib.compile text = .ok s) (find : lib.find s actual = .ok (m :: rest))
      (value : lib.value m = .ok picked) : Picks members picked
  | nothing {actual : Value} {text : String} {s : lib.Compiled}
      (given : findMember? (.string "actual") members = some actual)
      (path : findMember? (.string "actual_path") members = some (.string text))
      (compile : lib.compile text = .ok s) (find : lib.find s actual = .ok []) :
      Picks members .missing

/-- The case that the members of an object write, member by member. -/
structure Reads (members : List (Key × Value)) (c : Case) : Prop where
  verdict : (findMember? (.string "expect_pass") members).getD (.bool true) = .bool c.expectPass
  expected : c.expected = (findMember? (.string "expected") members).getD .missing
  actual : Picks lib members c.actual
  rules : c.rules = rulesGiven members

end Library

/-- What becomes of a case whose rules can be read. Its sides are compared under the shared rules
and then its own, and it passes if the result is the one it is meant to have. Only an integer in a
side or a number of entries that a rule requires, and an index in a path of its own, can be too long
for this. -/
inductive Decided (policy : SnapshotPolicy) (shared : List Rule) (name : Value) (casePath : String)
    (c : Case) : Except RunError CaseOutcome → Prop where
  | compared {rules : List Rule} {a : Assertion} {r : Result}
      (read : Rule.parseAll c.rules = .ok rules)
      (replayed : Rule.applyAll (shared ++ rules) (c.comparison policy) = .ok a)
      (validated : a.validate = .ok r) :
      Decided policy shared name casePath c (.ok {
        name, casePath, expectPass := c.expectPass
        passed := r.isValid == c.expectPass
        validation := some r.document })
  | unshown {rules : List Rule} {a : Assertion} (read : Rule.parseAll c.rules = .ok rules)
      (replayed : Rule.applyAll (shared ++ rules) (c.comparison policy) = .ok a)
      (unvalidated : a.validate = .error .longInteger)
      (long : (c.expected.holdsLongInteger = true ∨ c.actual.holdsLongInteger = true) ∨
        ∃ r ∈ shared ++ rules, ∃ n, r.directive = .elementCount n ∧ hasLongNumeral n = true) :
      Decided policy shared name casePath c (.error (.obstacle .longInteger))
  | index {rules : List Rule} {r : Rule} {e : PathError}
      (read : Rule.parseAll c.rules = .ok rules)
      (mem : r ∈ rules) (unreadable : r.Unreadable e) (long : e.IsLongIndex) :
      Decided policy shared name casePath c (.error (.path e))

/-- What becomes of a case that is not well-formed. It has an error, no result and does not pass,
unless the error cannot be told. -/
inductive Refused (lib : SelectorLibrary) (members : List (Key × Value)) (name : Value)
    (casePath : String) : Except RunError CaseOutcome → Prop where
  | told {expectPass : Bool} (e : CaseError) : Refused lib members name casePath
      (.ok { name, casePath, passed := false, expectPass, error := some e.message })
  | untold (untold : Untold lib members name) :
      Refused lib members name casePath (.error .untold)

variable {lib : SelectorLibrary} {members : List (Key × Value)} {name : Value}
  {policy : SnapshotPolicy} {shared rules : List Rule} {c : Case}

/-! ## Reading a case -/

theorem wellFormed_iff : WellFormed lib members ↔ ¬ Malformed lib members := by
  constructor
  · rintro ⟨hverdict, hselector, rules, hrules⟩
      (⟨v, hv, hno⟩ | ⟨actual, path, ha, hp, hno⟩ | ⟨e, he⟩)
    · obtain ⟨b, rfl⟩ := hverdict v hv
      exact hno b rfl
    · obtain rfl | ⟨text, s, rfl, hs⟩ := hselector actual path ha hp
      · exact hno.1 rfl
      · exact hno.2 text s rfl hs
    · rw [hrules] at he
      cases he
  · intro h
    obtain ⟨hverdict, hselector, hrules⟩ := (not_or.trans (and_congr_right' not_or)).1 h
    refine ⟨fun v hv => ?_, fun actual path ha hp => ?_, ?_⟩
    · by_contra hno
      exact hverdict ⟨v, hv, fun b hb => hno ⟨b, hb⟩⟩
    · by_contra hno
      obtain ⟨hnull, htext⟩ := not_or.1 hno
      exact hselector ⟨actual, path, ha, hp, hnull, fun text s ht hs => htext ⟨text, s, ht, hs⟩⟩
    · cases hparse : Rule.parseAll (rulesGiven members) with
      | ok rules => exact ⟨rules, rfl⟩
      | error e => exact absurd ⟨e, hparse⟩ hrules

theorem parseExpectPass_eq_ok {b : Bool} (h : parseExpectPass members = .ok b) :
    (findMember? (.string "expect_pass") members).getD (.bool true) = .bool b := by
  unfold parseExpectPass at h
  split at h
  · next hnone =>
    rw [hnone]
    exact congrArg Value.bool (Except.ok.inj h)
  · next hsome =>
    rw [hsome]
    exact congrArg Value.bool (Except.ok.inj h)
  · cases h

theorem picks_of_select {actual path picked : Value}
    (hactual : findMember? (.string "actual") members = some actual)
    (hpath : findMember? (.string "actual_path") members = some path)
    (h : select lib actual path = .ok (.ok picked)) : Picks lib members picked := by
  cases path with
  | null =>
    cases h
    exact .whole hactual (by rw [hpath]; rfl)
  | string text =>
    rw [select] at h
    cases hcompile : lib.compile text with
    | error e =>
      rw [hcompile] at h
      cases e <;> cases h
    | ok s =>
      simp only [hcompile] at h
      cases hfind : lib.find s actual with
      | error message =>
        rw [hfind] at h
        cases h
      | ok found =>
        rw [hfind] at h
        cases found with
        | nil =>
          cases h
          exact .nothing hactual hpath hcompile hfind
        | cons m rest =>
          cases hvalue : lib.value m with
          | error message =>
            simp only [hvalue] at h
            cases h
          | ok w =>
            simp only [hvalue] at h
            cases h
            exact .first hactual hpath hcompile hfind hvalue
  | _ => cases h

theorem picks_of_parseActual {picked : Value} (h : (Value.object members).IsDocument)
    (hpicked : parseActual lib members = .ok (.ok picked)) : Picks lib members picked := by
  cases hactual : findMember? (.string "actual") members with
  | none =>
    have hmissing : .missing = picked := by
      simpa [parseActual, hactual, Value.isMissing] using hpicked
    exact hmissing ▸ .absent hactual
  | some actual =>
    have hpresent : actual.isMissing = false := by
      cases Value.isDocument_of_findMember? h hactual <;> rfl
    cases hpath : findMember? (.string "actual_path") members with
    | none =>
      have hwhole : actual = picked := by
        simpa [parseActual, hactual, hpath, Value.isNull] using hpicked
      exact hwhole ▸ .whole hactual (by rw [hpath]; rfl)
    | some path =>
      rw [parseActual_eq_select hpresent hactual hpath] at hpicked
      exact picks_of_select hactual hpath hpicked

/-- A case that is read is the one that the members write. -/
theorem reads_of_ofMembers (h : (Value.object members).IsDocument)
    (hc : ofMembers lib members = .ok (.ok c)) : Reads lib members c := by
  unfold ofMembers at hc
  cases hverdict : parseExpectPass members with
  | error f => simp [hverdict] at hc
  | ok b =>
    rw [hverdict] at hc
    cases hactual : parseActual lib members with
    | error f => simp [hactual] at hc
    | ok read =>
      cases read with
      | error f => simp [hactual] at hc
      | ok picked =>
        rw [hactual] at hc
        cases hc
        exact ⟨parseExpectPass_eq_ok hverdict, rfl, picks_of_parseActual h hactual, rfl⟩

/-! ## Deciding a case -/

/-- Rules that cannot be read refuse a case once the shared rules have been replayed. -/
theorem run_eq_refused (policy : SnapshotPolicy) {e : RuleError}
    (hshared : ∀ r ∈ shared, r.ShortIndices) (hexpected : IsSide c.expected)
    (hactual : IsSide c.actual) (hparse : Rule.parseAll c.rules = .error e) :
    c.run policy shared = .ok (.error e) := by
  rw [run_of_refusal policy shared hparse]
  obtain ⟨-, a, ha, -⟩ | ⟨e, ⟨r, hr, hunreadable⟩, -⟩ :=
    replay_cases policy hexpected hactual shared
  · rw [ha]
  · exact absurd hunreadable.isLongIndex (hshared r hr e hunreadable)

/-- A case that has been read, with its rules, is decided. -/
theorem decided_of_read (name : Value) (casePath : String) (hshared : ∀ r ∈ shared, r.ShortIndices)
    (hc : ofMembers lib members = .ok (.ok c)) (hexpected : IsSide c.expected)
    (hactual : IsSide c.actual) (hparse : Rule.parseAll c.rules = .ok rules) :
    Decided policy shared name casePath c (outcome lib policy shared members name casePath) := by
  have hrun := run_of_rules policy shared hparse
  obtain ⟨-, a, ha, ⟨r, hr⟩ | ⟨hlong, hshow⟩⟩ | ⟨e, ⟨r, hr, hunreadable⟩, he⟩ :=
    replay_cases policy hexpected hactual (shared ++ rules)
  · simp only [ha, hr] at hrun
    simp only [outcome, hc, hrun]
    exact .compared hparse ha hr
  · simp only [ha, hlong] at hrun
    simp only [outcome, hc, hrun]
    exact .unshown hparse ha hlong hshow
  · rw [he] at hrun
    simp only [outcome, hc, hrun]
    rcases List.mem_append.1 hr with hr | hr
    · exact absurd hunreadable.isLongIndex (hshared r hr e hunreadable)
    · exact .index hparse hr hunreadable hunreadable.isLongIndex

/-- **Verdicts of cases.** A case that is well-formed is decided as its members say, with the part
that the library picks. Any other is refused and does not pass, whatever it is meant to do. -/
theorem outcome_verdict (lib : SelectorLibrary) (policy : SnapshotPolicy) (name : Value)
    (casePath : String) (h : (Value.object members).IsDocument) (hserved : Served lib members)
    (hshared : ∀ r ∈ shared, r.ShortIndices) :
    (WellFormed lib members → ∃ c, Reads lib members c ∧
        Decided policy shared name casePath c (outcome lib policy shared members name casePath)) ∧
      (¬ WellFormed lib members →
        Refused lib members name casePath (outcome lib policy shared members name casePath)) := by
  obtain ⟨hmisstated, f, hf⟩ | ⟨hstated, c, hc, hexpected, hactual, hrules⟩ :=
    ofMembers_cases h hserved
  · have hmalformed : Malformed lib members :=
      hmisstated.elim .inl fun hselector => .inr (.inl hselector)
    refine ⟨fun hwell => absurd hmalformed (wellFormed_iff.1 hwell), fun _ => ?_⟩
    simp only [outcome, hf]
    split
    · next hlong => exact .untold (.inl ⟨hmisstated, hlong⟩)
    · exact .told (.fault name f)
  · cases hparse : Rule.parseAll c.rules with
    | error e =>
      have hrefused : Rule.parseAll (rulesGiven members) = .error e := hrules ▸ hparse
      have hmalformed : Malformed lib members := .inr (.inr ⟨e, hrefused⟩)
      refine ⟨fun hwell => absurd hmalformed (wellFormed_iff.1 hwell), fun _ => ?_⟩
      simp only [outcome, hc, run_eq_refused policy hshared hexpected hactual hparse]
      cases hshow : e.isShowable with
      | true => exact .told (.rule e)
      | false => exact .untold (.inr ⟨e, hrefused, hshow⟩)
    | ok rules =>
      have hwell : WellFormed lib members := by
        refine wellFormed_iff.2 fun hmalformed => ?_
        obtain hverdict | hselector | ⟨e, he⟩ := hmalformed
        · exact hstated (.inl hverdict)
        · exact hstated (.inr hselector)
        · rw [← hrules, hparse] at he
          cases he
      exact ⟨fun _ => ⟨c, reads_of_ofMembers h hc,
        decided_of_read name casePath hshared hc hexpected hactual hparse⟩, absurd hwell⟩

/-- A selector, a rule that overrides a shared one, and elements in another order than expected: the
case is meant to fail, and so it passes. Where a number says so, it is refused. -/
theorem outcome_verdict_meant_to_fail :
    let shared : List Rule := [⟨.elementCount 3, ["a"]⟩]
    let members : Value → List (Key × Value) := fun expectPass =>
      [(.string "expected", .object [(.string "a", .array [.int 1, .int 2])]),
        (.string "actual", .object [(.string "b", .object
          [(.string "a", .array [.int 2, .int 1])])]),
        (.string "actual_path", .string "$.b"),
        (.string "rules", .array [.object [(.string "option", .string "element_count"),
          (.string "paths", .string "a"), (.string "count", .int 2)]]),
        (.string "expect_pass", expectPass)]
    let lib := Selector.library
    (∀ r ∈ shared, r.ShortIndices) ∧ (∀ v, Served lib (members v)) ∧
      ((Value.object (members (.bool false))).IsDocument ∧ WellFormed lib (members (.bool false)) ∧
        ∃ c, Reads lib (members (.bool false)) c ∧
          Decided {} shared (.string "c") "c.json" c
            (outcome lib {} shared (members (.bool false)) (.string "c") "c.json") ∧
          (outcome lib {} shared (members (.bool false)) (.string "c") "c.json").toOption.map
            (fun o => (o.passed, o.error, o.validation.isSome)) = some (true, none, true)) ∧
      (Value.object (members (.int 0))).IsDocument ∧ ¬ WellFormed lib (members (.int 0)) ∧
        Refused lib (members (.int 0)) (.string "c") "c.json"
          (outcome lib {} shared (members (.int 0)) (.string "c") "c.json") := by
  intro shared members lib
  have hparse : Selector.parse "$.b" = .ok (.next .root (.members ["b"])) := by decide +kernel
  have hshared : ∀ r ∈ shared, r.ShortIndices := by
    have hread : (Path.parse "a").toOption.isSome = true := by decide +kernel
    refine List.forall_mem_singleton.2 ?_
    rintro e ⟨text, htext, he⟩
    rw [List.mem_singleton.1 htext] at he
    rw [he] at hread
    cases hread
  have hserved : ∀ v, Served lib (members v) := by
    rintro v actual text hactual htext
    obtain rfl := Option.some.inj hactual
    obtain rfl : "$.b" = text := Value.string.inj (Option.some.inj htext)
    exact Selector.serves_library (by decide +kernel) hparse rfl
      (List.forall_mem_singleton.2 ⟨_, rfl⟩)
  have hfails : (Value.object (members (.bool false))).IsDocument := by decide +kernel
  have hnumber : (Value.object (members (.int 0))).IsDocument := by decide +kernel
  have hwell : WellFormed lib (members (.bool false)) := by
    refine ⟨fun v hv => ⟨false, (Option.some.inj hv).symm⟩, fun actual path _ hp => .inr ?_,
      [⟨.elementCount 2, ["a"]⟩], eq_ok_of_toOption (by decide +kernel)⟩
    obtain rfl : Value.string "$.b" = path := Option.some.inj hp
    have hcompile : lib.compile "$.b" = .ok (.next .root (.members ["b"])) := by
      simp only [lib, Selector.library, hparse]
      rfl
    exact ⟨_, _, rfl, hcompile⟩
  have hill : ¬ WellFormed lib (members (.int 0)) := by
    intro hwell
    obtain ⟨b, hb⟩ := hwell.verdict (.int 0) rfl
    cases hb
  obtain ⟨c, hreads, hdecided⟩ :=
    (outcome_verdict lib {} (.string "c") "c.json" hfails (hserved _) hshared).1 hwell
  exact ⟨hshared, hserved, ⟨hfails, hwell, c, hreads, hdecided, by decide +kernel⟩, hnumber, hill,
    (outcome_verdict lib {} (.string "c") "c.json" hnumber (hserved _) hshared).2 hill⟩

/-- A case that is well-formed has no outcome where a shared rule requires the least number that is
too long to be written, and it has another number of entries. -/
theorem outcome_long_count :
    let count : Int := ↑(Nat.pow 10 longestNumeral)
    let shared : List Rule := [⟨.elementCount count, []⟩]
    let members : List (Key × Value) :=
      [(.string "expected", .array []), (.string "actual", .array [.int 1])]
    (∃ v, Rule.parseAll v = .ok shared) ∧ (∀ r ∈ shared, r.ShortIndices) ∧
      (Value.object members).IsDocument ∧ (Value.object members).holdsLongInteger = false ∧
        ∀ lib, Served lib members ∧ WellFormed lib members ∧
          outcome lib {} shared members (.string "c") "c.json" =
            .error (.obstacle .longInteger) := by
  obtain ⟨i, hi, hlong⟩ := exists_hasLongNumeral
  rw [← hi]
  intro count shared members
  have hnonneg : 0 ≤ count := Int.natCast_nonneg i
  have hshared : ∃ v, Rule.parseAll v = .ok shared := by
    have hwrites : Rule.Writes
        [(.string "option", .string "element_count"), (.string "count", .int count)]
        ⟨.elementCount count, []⟩ :=
      ⟨rfl, .nothing rfl, .inl ⟨rfl, rfl⟩, hnonneg, rfl⟩
    exact ⟨.array [.object _], bind_eq_ok_iff.2 ⟨_, Rule.parse_eq_ok_iff.2 ⟨_, rfl, hwrites⟩, rfl⟩⟩
  have hshort : ∀ r ∈ shared, r.ShortIndices := by
    refine List.forall_mem_singleton.2 ?_
    rintro e ⟨text, htext, -⟩
    cases htext
  refine ⟨hshared, hshort, by decide +kernel, by decide +kernel, fun lib => ⟨nofun, ?_, ?_⟩⟩
  · exact ⟨nofun, fun _ _ _ => nofun, [], rfl⟩
  · let n := Node.configured [⟨.elementCount count, .root, .singleNode⟩]
    let c : Case := ⟨.array [], .array [.int 1], .null, true⟩
    let a : Assertion := { c.comparison {} with options := n }
    have hcase : ofMembers lib members = .ok (.ok c) := rfl
    have happly : Rule.applyAll (shared ++ []) (c.comparison {}) = .ok a := rfl
    have hvalidate : a.validate = .error .longInteger := by
      refine validate_eq_error_iff.2 ?_
      change (findings {} n (.array []) (.array [.int 1])).obstacle = _
      rw [findings, Findings.obstacle_append, (Constraints.check_hidden_count hlong).2]
      rfl
    have hread : Rule.parseAll c.rules = .ok [] := rfl
    have hrun := run_of_rules {} shared hread
    simp only [happly, hvalidate] at hrun
    simp only [outcome, hcase, hrun]

end Case

end JsonExpect
