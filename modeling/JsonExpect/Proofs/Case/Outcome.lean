import JsonExpect.Case.Outcome
import JsonExpect.Proofs.Path.Failure
import JsonExpect.Proofs.Rule.Replay
import JsonExpect.Proofs.Selector.Laws

/-!
# Cases have outcomes

A case has an outcome, whatever stands in it: where it is malformed, the outcome says so and gives
no verdict, and otherwise it has the result of the comparison (`Case.outcome_total`). This is so
with every library of selectors that serves the case. Two things keep a case from its outcome: the
text of a path with an index in too many digits, in a shared rule or in one of its own, and an
integer in too many digits that has to be shown. The first does so in a case that is right by itself
(`Case.outcome_long_index`).
-/

namespace JsonExpect

theorem Rule.Unreadable.isLongIndex {r : Rule} {e : PathError} (h : r.Unreadable e) :
    e.IsLongIndex := by
  obtain ⟨text, _, htext⟩ := h
  exact Path.parse_eq_error htext

namespace Case

/-- What a case gives as its rules. -/
def rulesGiven (members : List (Key × Value)) : Value :=
  (findMember? (.string "rules") members).getD .null

/-- Something else than a truth value says whether the case is meant to pass. -/
def MisstatesVerdict (members : List (Key × Value)) : Prop :=
  ∃ v, findMember? (.string "expect_pass") members = some v ∧ ∀ b, v ≠ .bool b

/-- The rules are none. -/
def MisstatesRules (members : List (Key × Value)) : Prop :=
  ∃ e, Rule.parseAll (rulesGiven members) = .error e

section Library

variable (lib : SelectorLibrary)

/-- A value is neither null nor a text that compiles. -/
def IsNoSelector (path : Value) : Prop :=
  path ≠ .null ∧ ∀ text s, path = .string text → lib.compile text ≠ .ok s

/-- What should pick the actual part out of what is given is no selector. -/
def MisstatesSelector (members : List (Key × Value)) : Prop :=
  ∃ actual path, findMember? (.string "actual") members = some actual ∧
    findMember? (.string "actual_path") members = some path ∧ IsNoSelector lib path

/-- The members of an object write no case. -/
def Malformed (members : List (Key × Value)) : Prop :=
  MisstatesVerdict members ∨ MisstatesSelector lib members ∨ MisstatesRules members

/-- What is wrong with a case cannot be told: its name, or what is refused as a rule, shows an
integer in too many digits. -/
def Untold (members : List (Key × Value)) (name : Value) : Prop :=
  (MisstatesVerdict members ∨ MisstatesSelector lib members) ∧ name.holdsLongInteger = true ∨
    ∃ e, Rule.parseAll (rulesGiven members) = .error e ∧ e.isShowable = false

/-- The library serves the text that picks from what a case gives. -/
def Served (members : List (Key × Value)) : Prop :=
  ∀ actual text, findMember? (.string "actual") members = some actual →
    findMember? (.string "actual_path") members = some (.string text) → lib.Serves text actual

/-- The texts of all paths can be read, in shared rules and in those of the case. -/
def PathsReadable (shared : List Rule) (members : List (Key × Value)) : Prop :=
  Rule.Readable shared ∧
    ∀ rules, Rule.parseAll (rulesGiven members) = .ok rules → Rule.Readable rules

/-- An outcome goes by the name and the path of its case. It has an error when the case is
malformed, and otherwise the result of a comparison, for which all paths have been read. -/
structure Reports (shared : List Rule) (members : List (Key × Value)) (name : Value)
    (casePath : String) (o : CaseOutcome) : Prop where
  name : o.name = name
  casePath : o.casePath = casePath
  error : o.error.isSome = true ↔ Malformed lib members
  unpassed : o.error.isSome = true → o.passed = false ∧ o.validation = none
  validated : o.error = none → o.validation.isSome = true ∧ PathsReadable shared members

/-- What keeps a case from its outcome: a path has an index in too many digits, a rule requires a
number of entries in too many, or an integer in too many stands where it may have to be shown. -/
inductive Halts (shared : List Rule) (members : List (Key × Value)) (name : Value) :
    RunError → Prop where
  | sharedPath {r : Rule} {e : PathError} (mem : r ∈ shared) (unreadable : r.Unreadable e)
      (long : e.IsLongIndex) : Halts shared members name (.path e)
  | ownPath {rules : List Rule} {r : Rule} {e : PathError}
      (own : Rule.parseAll (rulesGiven members) = .ok rules) (mem : r ∈ rules)
      (unreadable : r.Unreadable e) (long : e.IsLongIndex) : Halts shared members name (.path e)
  | count {rules : List Rule} {r : Rule} {n : Int}
      (own : Rule.parseAll (rulesGiven members) = .ok rules) (mem : r ∈ shared ++ rules)
      (requires : r.directive = .elementCount n) (long : hasLongNumeral n = true) :
      Halts shared members name (.obstacle .longInteger)
  | side {c : Case} (read : ofMembers lib members = .ok (.ok c))
      (long : c.expected.holdsLongInteger = true ∨ c.actual.holdsLongInteger = true) :
      Halts shared members name (.obstacle .longInteger)
  | untold (untold : Untold lib members name) : Halts shared members name .untold

end Library

/-- A document, or nothing at all. -/
def IsSide (v : Value) : Prop := v.IsDocument ∨ v = .missing

variable {lib : SelectorLibrary} {members : List (Key × Value)} {name : Value}

theorem IsSide.writable {v : Value} (h : IsSide v) :
    ∀ l ∈ v.locations, ∀ k ∈ l, k.isWritable = true := by
  obtain h | rfl := h
  · exact fun _ => h.writable
  · exact List.forall_mem_singleton.2 (List.forall_mem_nil _)

/-! ## Reading a case -/

theorem parseExpectPass_cases (members : List (Key × Value)) :
    MisstatesVerdict members ∧ (∃ f, parseExpectPass members = .error f) ∨
      ¬ MisstatesVerdict members ∧ ∃ b, parseExpectPass members = .ok b := by
  unfold MisstatesVerdict parseExpectPass
  cases findMember? (.string "expect_pass") members with
  | none => exact .inr ⟨nofun, true, rfl⟩
  | some v =>
    cases v with
    | bool b =>
      refine .inr ⟨?_, b, rfl⟩
      rintro ⟨_, ⟨⟩, hb⟩
      exact hb b rfl
    | _ => exact .inl ⟨⟨_, rfl, nofun⟩, _, rfl⟩

/-- The part of what is given that a selector picks, the whole where the selector is null. -/
def select (lib : SelectorLibrary) (actual : Value) :
    Value → Except String (Except CaseFault Value)
  | .null => .ok (.ok actual)
  | .string text =>
    match lib.compile text with
    | .error (.refused told) => .ok (.error (.badSelector text told))
    | .error (.raised message) => .error message
    | .ok s =>
      match lib.find s actual with
      | .error message => .error message
      | .ok [] => .ok (.ok .missing)
      | .ok (m :: _) => (lib.value m).map .ok
  | _ => .ok (.error .selectorNotText)

theorem parseActual_eq_select {actual path : Value} (hpresent : actual.isMissing = false)
    (hactual : findMember? (.string "actual") members = some actual)
    (hpath : findMember? (.string "actual_path") members = some path) :
    parseActual lib members = select lib actual path := by
  unfold parseActual
  rw [hactual, hpath, Option.getD_some, Option.getD_some]
  simp only [hpresent, Bool.or_false]
  cases path <;> rfl

/-- Served by the library, a selector picks a document or nothing from a document, unless it is
none. -/
theorem select_cases {actual path : Value} (h : actual.IsDocument)
    (hserves : ∀ text, path = .string text → lib.Serves text actual) :
    IsNoSelector lib path ∧ (∃ f, select lib actual path = .ok (.error f)) ∨
      ¬ IsNoSelector lib path ∧ ∃ v, select lib actual path = .ok (.ok v) ∧ IsSide v := by
  cases path with
  | null => exact .inr ⟨fun hbad => hbad.1 rfl, actual, rfl, .inl h⟩
  | string text =>
    have hlaws := hserves text rfl
    rw [select]
    cases hcompile : lib.compile text with
    | error e =>
      have hnone : IsNoSelector lib (.string text) := by
        refine ⟨nofun, ?_⟩
        rintro _ s ⟨⟩
        rw [hcompile]
        nofun
      cases e with
      | refused told => exact .inl ⟨hnone, _, rfl⟩
      | raised message => exact absurd hcompile (hlaws.compiles message)
    | ok s =>
      refine .inr ⟨fun hbad => hbad.2 text s rfl hcompile, ?_⟩
      obtain ⟨found, hfound⟩ := hlaws.evaluates s hcompile
      cases found with
      | nil => exact ⟨.missing, by simp only [hfound], .inr rfl⟩
      | cons m rest =>
        have hmatches : lib.Matches text actual m := ⟨s, _, hcompile, hfound, List.mem_cons_self⟩
        obtain ⟨w, hw⟩ := hlaws.reads m hmatches
        exact ⟨w, by simp only [hfound, hw]; rfl, .inl (hlaws.picks m w hmatches hw)⟩
  | _ => exact .inl ⟨⟨nofun, nofun⟩, _, rfl⟩

theorem parseActual_cases (h : (Value.object members).IsDocument) (hserved : Served lib members) :
    MisstatesSelector lib members ∧ (∃ f, parseActual lib members = .ok (.error f)) ∨
      ¬ MisstatesSelector lib members ∧
        ∃ v, parseActual lib members = .ok (.ok v) ∧ IsSide v := by
  cases hactual : findMember? (.string "actual") members with
  | none =>
    refine .inr ⟨?_, .missing, ?_, .inr rfl⟩
    · rintro ⟨actual, _, hgiven, _⟩
      rw [hactual] at hgiven
      cases hgiven
    · simp [parseActual, hactual, Value.isMissing]
  | some actual =>
    have hdocument : actual.IsDocument := Value.isDocument_of_findMember? h hactual
    have hpresent : actual.isMissing = false := by cases hdocument <;> rfl
    cases hpath : findMember? (.string "actual_path") members with
    | none =>
      refine .inr ⟨?_, actual, ?_, .inl hdocument⟩
      · rintro ⟨_, path, _, hgiven, _⟩
        rw [hpath] at hgiven
        cases hgiven
      · simp [parseActual, hactual, hpath, Value.isNull]
    | some path =>
      rw [parseActual_eq_select hpresent hactual hpath]
      have hserves : ∀ text, path = .string text → lib.Serves text actual := by
        rintro text rfl
        exact hserved actual text hactual hpath
      obtain ⟨hbad, hfault⟩ | ⟨hgood, hpicked⟩ := select_cases hdocument hserves
      · exact .inl ⟨⟨actual, path, hactual, hpath, hbad⟩, hfault⟩
      · refine .inr ⟨?_, hpicked⟩
        rintro ⟨_, path', _, hpath', hbad⟩
        obtain rfl := Option.some.inj (hpath.symm.trans hpath')
        exact hgood hbad

/-- A case is read, with sides that are documents or missing, or else what it says of the verdict or
of its selector is wrong. -/
theorem ofMembers_cases (h : (Value.object members).IsDocument) (hserved : Served lib members) :
    (MisstatesVerdict members ∨ MisstatesSelector lib members) ∧
        (∃ f, ofMembers lib members = .ok (.error f)) ∨
      ¬ (MisstatesVerdict members ∨ MisstatesSelector lib members) ∧
        ∃ c, ofMembers lib members = .ok (.ok c) ∧ IsSide c.expected ∧ IsSide c.actual ∧
          c.rules = rulesGiven members := by
  unfold ofMembers
  obtain ⟨hverdict, f, hf⟩ | ⟨hverdict, b, hb⟩ := parseExpectPass_cases members
  · exact .inl ⟨.inl hverdict, f, by rw [hf]⟩
  · obtain ⟨hselector, f, hf⟩ | ⟨hselector, v, hv, hside⟩ := parseActual_cases h hserved
    · exact .inl ⟨.inr hselector, f, by rw [hb, hf]⟩
    · refine .inr ⟨not_or.2 ⟨hverdict, hselector⟩, _, by rw [hb, hv], ?_, hside, rfl⟩
      cases hexpected : findMember? (.string "expected") members with
      | none => exact .inr rfl
      | some w => exact .inl (Value.isDocument_of_findMember? h hexpected)

/-! ## Running a case -/

/-- An integer in too many digits that a comparison under options may have to show: one in a side,
or a number of entries that a call requires. -/
def MayShow (a : Assertion) (calls : List Call) : Prop :=
  a.expected.holdsLongInteger = true ∨ a.actual.holdsLongInteger = true ∨
    ∃ c ∈ calls, ∃ n, c.setting = .elementCount n ∧ hasLongNumeral n = true

/-- Sides that are documents or missing have a result, unless an integer in too many digits may have
to be shown. -/
theorem validate_eq_ok_or_long {a : Assertion} {calls : List Call} (hexpected : IsSide a.expected)
    (hactual : IsSide a.actual) (hoptions : a.options = Node.configured calls)
    (hl : ∀ c ∈ calls, c.path.Legible) :
    (∃ r, a.validate = .ok r) ∨ a.validate = .error .longInteger ∧ MayShow a calls := by
  unfold Assertion.validate
  split
  · exact .inl ⟨_, rfl⟩
  · cases h : JsonExpect.validate a.policy a.options a.expected a.actual with
    | ok r => exact .inl ⟨r, rfl⟩
    | error o =>
      obtain hobstructs | hobstructs | ⟨rfl, hlong⟩ := cause_of_validate_eq_error h
      · exact absurd hobstructs (Value.not_obstructs hexpected.writable rfl)
      · exact absurd hobstructs (Value.not_obstructs hactual.writable rfl)
      · refine .inr ⟨rfl, hlong.imp_right fun hlong => hlong.imp_right fun hcount => ?_⟩
        rw [hoptions] at hcount
        exact Node.exists_call_of_requiresLongCount hl hactual.writable hcount

/-- Where calls set what rules say, an integer that may have to be shown stands in a side, or one of
the rules requires it. -/
theorem MayShow.side_or_count {a : Assertion} {calls : List Call} (h : MayShow a calls)
    {rules : List Rule} (hcalls : ∀ c ∈ calls, ∃ r ∈ rules, c.setting = r.directive.setting) :
    (a.expected.holdsLongInteger = true ∨ a.actual.holdsLongInteger = true) ∨
      ∃ r ∈ rules, ∃ n, r.directive = .elementCount n ∧ hasLongNumeral n = true := by
  obtain hexpected | hactual | ⟨c, hc, n, hsetting, hn⟩ := h
  · exact .inl (.inl hexpected)
  · exact .inl (.inr hactual)
  · obtain ⟨r, hr, hdirective⟩ := hcalls c hc
    exact .inr ⟨r, hr, n, Directive.eq_of_setting (hdirective.symm.trans hsetting), hn⟩

/-- The comparison of a case before any rule: its sides as they are. -/
def comparison (policy : SnapshotPolicy) (c : Case) : Assertion :=
  { expected := c.expected, actual := c.actual, policy }

/-- Rules that can be read, replayed on the comparison of a case, come to a result, unless an
integer in too many digits may have to be shown. -/
theorem replay_cases (policy : SnapshotPolicy) {c : Case} (hexpected : IsSide c.expected)
    (hactual : IsSide c.actual) (rules : List Rule) :
    Rule.Readable rules ∧ (∃ a, Rule.applyAll rules (c.comparison policy) = .ok a ∧
        ((∃ r, a.validate = .ok r) ∨ a.validate = .error .longInteger ∧
          ((c.expected.holdsLongInteger = true ∨ c.actual.holdsLongInteger = true) ∨
            ∃ r ∈ rules, ∃ n, r.directive = .elementCount n ∧ hasLongNumeral n = true))) ∨
      ∃ e, (∃ r ∈ rules, r.Unreadable e) ∧
        Rule.applyAll rules (c.comparison policy) = .error e := by
  have hstart : (c.comparison policy).options = Node.configured [] := rfl
  obtain ⟨hread, calls, hcalls, happly⟩ | herror := Rule.applyAll_cases rules hstart
  · refine .inl ⟨hread, _, happly, ?_⟩
    obtain hresult | ⟨hlong, hshow⟩ := validate_eq_ok_or_long
      (a := { c.comparison policy with options := Node.configured ([] ++ calls) })
      hexpected hactual rfl fun call hcall => (hcalls call hcall).1
    · exact .inl hresult
    · exact .inr ⟨hlong, hshow.side_or_count fun call hcall => (hcalls call hcall).2⟩
  · exact .inr herror

section Run

variable {policy : SnapshotPolicy} {shared rules : List Rule} {c : Case}

/-- A run replays the shared rules and then those of the case. -/
theorem run_of_rules (policy : SnapshotPolicy) (shared : List Rule)
    (hparse : Rule.parseAll c.rules = .ok rules) :
    c.run policy shared =
      match Rule.applyAll (shared ++ rules) (c.comparison policy) with
      | .error e => .error (.path e)
      | .ok a =>
        match a.validate with
        | .error o => .error (.obstacle o)
        | .ok r => .ok (.ok r) := by
  rw [run, ← comparison, Rule.applyAll_append]
  cases Rule.applyAll shared (c.comparison policy) with
  | error e => rfl
  | ok a =>
    simp only [hparse]
    rfl

/-- Where its own rules cannot be read, a run ends once the shared ones have been replayed. -/
theorem run_of_refusal (policy : SnapshotPolicy) (shared : List Rule) {e : RuleError}
    (hparse : Rule.parseAll c.rules = .error e) :
    c.run policy shared =
      match Rule.applyAll shared (c.comparison policy) with
      | .error e => .error (.path e)
      | .ok _ => .ok (.error e) := by
  rw [run, ← comparison]
  cases Rule.applyAll shared (c.comparison policy) with
  | error e => rfl
  | ok a => simp only [hparse]

/-- A case that has been read runs to a result, or to what is wrong with its rules, or it halts. -/
theorem run_cases (policy : SnapshotPolicy) (shared : List Rule) (name : Value)
    (hread : ofMembers lib members = .ok (.ok c)) (hexpected : IsSide c.expected)
    (hactual : IsSide c.actual) (hrules : c.rules = rulesGiven members) :
    (∃ e, Rule.parseAll (rulesGiven members) = .error e ∧ c.run policy shared = .ok (.error e)) ∨
      ¬ MisstatesRules members ∧ PathsReadable shared members ∧
          (∃ r, c.run policy shared = .ok (.ok r)) ∨
        ∃ e, Halts lib shared members name e ∧ c.run policy shared = .error e := by
  cases hparse : Rule.parseAll c.rules with
  | error e =>
    rw [run_of_refusal policy shared hparse]
    obtain ⟨-, a, ha, -⟩ | ⟨e', ⟨r, hr, hunreadable⟩, he⟩ :=
      replay_cases policy hexpected hactual shared
    · exact .inl ⟨e, hrules ▸ hparse, by rw [ha]⟩
    · exact .inr (.inr ⟨_, .sharedPath hr hunreadable hunreadable.isLongIndex, by rw [he]⟩)
  | ok rules =>
    have hown : Rule.parseAll (rulesGiven members) = .ok rules := hrules ▸ hparse
    rw [run_of_rules policy shared hparse]
    obtain ⟨hreadable, a, ha, hvalidate⟩ | ⟨e, ⟨r, hr, hunreadable⟩, he⟩ :=
      replay_cases policy hexpected hactual (shared ++ rules)
    · rw [ha]
      obtain ⟨result, hresult⟩ | ⟨hlong, hside | ⟨r, hr, n, hn, hnlong⟩⟩ := hvalidate
      · refine .inr (.inl ⟨?_, ⟨?_, ?_⟩, result, by simp only [hresult]⟩)
        · rintro ⟨e, he⟩
          rw [hown] at he
          cases he
        · exact fun r hr => hreadable r (List.mem_append_left _ hr)
        · intro rules' hrules' r hr
          obtain rfl := Except.ok.inj (hown.symm.trans hrules')
          exact hreadable r (List.mem_append_right _ hr)
      · exact .inr (.inr ⟨_, .side hread hside, by simp only [hlong]⟩)
      · exact .inr (.inr ⟨_, .count hown hr hn hnlong, by simp only [hlong]⟩)
    · rw [he]
      rcases List.mem_append.1 hr with hr | hr
      · exact .inr (.inr ⟨_, .sharedPath hr hunreadable hunreadable.isLongIndex, rfl⟩)
      · exact .inr (.inr ⟨_, .ownPath hown hr hunreadable hunreadable.isLongIndex, rfl⟩)

end Run

/-- **Cases have outcomes.** A case has an outcome under any shared rules and with any library that
serves it. The outcome tells what is wrong with the case or else holds the result of its comparison,
unless the text of a path has an index in too many digits, or an integer in too many has to be
shown.
-/
theorem outcome_total (lib : SelectorLibrary) (policy : SnapshotPolicy) (shared : List Rule)
    (name : Value) (casePath : String) (h : (Value.object members).IsDocument)
    (hserved : Served lib members) :
    (∃ o, outcome lib policy shared members name casePath = .ok o ∧
        Reports lib shared members name casePath o) ∨
      ∃ e, Halts lib shared members name e ∧
        outcome lib policy shared members name casePath = .error e := by
  unfold outcome
  obtain ⟨hmisstated, f, hf⟩ | ⟨hstated, c, hc, hexpected, hactual, hrules⟩ :=
    ofMembers_cases h hserved
  · have hmalformed : Malformed lib members :=
      hmisstated.elim .inl fun hselector => .inr (.inl hselector)
    simp only [hf]
    split
    · next hlong => exact .inr ⟨_, .untold (.inl ⟨hmisstated, hlong⟩), rfl⟩
    · exact .inl ⟨_, rfl, rfl, rfl, iff_of_true rfl hmalformed, fun _ => ⟨rfl, rfl⟩, nofun⟩
  · simp only [hc]
    obtain ⟨e, hrefused, he⟩ | ⟨hread, hpaths, r, hr⟩ | ⟨e, hhalts, he⟩ :=
      run_cases policy shared name hc hexpected hactual hrules
    · simp only [he]
      cases hshow : e.isShowable with
      | true =>
        exact .inl ⟨_, rfl, rfl, rfl, iff_of_true rfl (.inr (.inr ⟨e, hrefused⟩)),
          fun _ => ⟨rfl, rfl⟩, nofun⟩
      | false => exact .inr ⟨_, .untold (.inr ⟨e, hrefused, hshow⟩), rfl⟩
    · simp only [hr]
      have hgood : ¬ Malformed lib members := fun hmalformed =>
        hmalformed.elim (fun hverdict => hstated (.inl hverdict)) fun hrest =>
          hrest.elim (fun hselector => hstated (.inr hselector)) hread
      exact .inl ⟨_, rfl, rfl, rfl, iff_of_false nofun hgood, nofun, fun _ => ⟨rfl, hpaths⟩⟩
    · simp only [he]
      exact .inr ⟨e, hhalts, rfl⟩

/-- A selector, a shared rule and a rule of its own: the case passes. -/
theorem outcome_total_selected :
    let shared : List Rule := [⟨.elementCount 2, ["a"]⟩]
    let members : List (Key × Value) :=
      [(.string "expected", .object [(.string "a", .array [.int 1, .int 2])]),
        (.string "actual", .object [(.string "b", .object
          [(.string "a", .array [.int 2, .int 1])])]),
        (.string "actual_path", .string "$.b"),
        (.string "rules", .array [.object [(.string "option", .string "any_order"),
          (.string "paths", .string "a[*]")]])]
    (Value.object members).IsDocument ∧ Served Selector.library members ∧
      ∃ o, outcome Selector.library {} shared members (.string "c") "c.json" = .ok o ∧
        Reports Selector.library shared members (.string "c") "c.json" o ∧ o.passed = true := by
  intro shared members
  have hpassed : (outcome Selector.library {} shared members (.string "c") "c.json").toOption.map
      (·.passed) = some true := by decide +kernel
  have hdocument : (Value.object members).IsDocument := by decide +kernel
  have hserved : Served Selector.library members := by
    rintro actual text hactual htext
    obtain rfl := Option.some.inj hactual
    obtain rfl : "$.b" = text := Value.string.inj (Option.some.inj htext)
    have hparse : Selector.parse "$.b" = .ok (.next .root (.members ["b"])) := by decide +kernel
    exact Selector.serves_library (by decide +kernel) hparse rfl
      (List.forall_mem_singleton.2 ⟨_, rfl⟩)
  obtain ⟨o, ho, hreports⟩ | ⟨e, _, he⟩ :=
    outcome_total Selector.library {} shared (.string "c") "c.json" hdocument hserved
  · rw [ho] at hpassed
    exact ⟨hdocument, hserved, o, ho, hreports, Option.some.inj hpassed⟩
  · rw [he] at hpassed
    cases hpassed

/-- A comparison of one with itself, with a rule for a path. -/
def oneWithRule (text : String) : List (Key × Value) :=
  [(.string "expected", .int 1), (.string "actual", .int 1),
    (.string "rules", .array [.object [(.string "option", .string "any_order"),
      (.string "paths", .array [.string text])]])]

theorem parseAll_oneWithRule (text : String) :
    Rule.parseAll (rulesGiven (oneWithRule text)) =
      .ok [⟨.scoped .anyOrder .singleNode, [text]⟩] := by
  rfl

theorem isDocument_oneWithRule (text : String) : (Value.object (oneWithRule text)).IsDocument :=
  Value.isDocument_iff.2 (by rfl)

/-- Without a selector nothing is asked of a library. -/
theorem served_oneWithRule (lib : SelectorLibrary) (text : String) :
    Served lib (oneWithRule text) := by
  rintro _ _ _ ⟨⟩

theorem not_malformed_oneWithRule (lib : SelectorLibrary) (text : String) :
    ¬ Malformed lib (oneWithRule text) := by
  rintro (⟨v, hv, _⟩ | ⟨_, path, _, hpath, _⟩ | ⟨e, he⟩)
  · cases hv
  · cases hpath
  · rw [parseAll_oneWithRule] at he
    cases he

/-- A path that cannot be read keeps the comparison from its outcome. -/
theorem outcome_oneWithRule (lib : SelectorLibrary) {text : String} {e : PathError}
    (h : Path.parse text = .error e) (name : Value) (casePath : String) :
    outcome lib {} [] (oneWithRule text) name casePath = .error (.path e) := by
  let c : Case := ⟨.int 1, .int 1, rulesGiven (oneWithRule text), true⟩
  have hcase : ofMembers lib (oneWithRule text) = .ok (.ok c) := by rfl
  have hrun := run_of_rules (c := c) {} [] (parseAll_oneWithRule text)
  have hreplay : Rule.applyAll ([] ++ [⟨.scoped .anyOrder .singleNode, [text]⟩])
      (c.comparison {}) = .error e := by
    obtain ⟨hread, -⟩ | ⟨e', ⟨r, hr, text', htext', he'⟩, happly⟩ :=
      Rule.applyAll_cases ([] ++ [⟨.scoped .anyOrder .singleNode, [text]⟩])
        (show (c.comparison {}).options = Node.configured [] from rfl)
    · obtain ⟨p, hp⟩ := hread _ (List.mem_singleton_self _) text (List.mem_singleton_self _)
      rw [h] at hp
      cases hp
    · obtain rfl := List.mem_singleton.1 hr
      obtain rfl := List.mem_singleton.1 htext'
      rw [happly, ← Except.error.inj (h.symm.trans he')]
  rw [hreplay] at hrun
  unfold outcome
  simp only [hcase, hrun]

/-- The comparison of one with itself is a case that is right, but with an index of 4301 nines in
the path of its rule it has no outcome, whatever the library. -/
theorem outcome_long_index :
    let text := String.ofList ('[' :: List.replicate 4301 '9' ++ [']'])
    (Value.object (oneWithRule text)).IsDocument ∧ ∀ lib : SelectorLibrary,
      Served lib (oneWithRule text) ∧ ¬ Malformed lib (oneWithRule text) ∧
        outcome lib {} [] (oneWithRule text) (.string "c") "c.json" =
          .error (.path (.indexTooLong 4301)) := by
  intro text
  have hdigits : ∀ d ∈ List.replicate 4301 '9', d.isDigit = true := fun d hd => by
    rw [List.eq_of_mem_replicate hd]
    rfl
  have hlong : longestNumeral < (List.replicate 4301 '9').length := by
    rw [List.length_replicate]
    decide
  have htext : Path.parse text = .error (.indexTooLong 4301) := by
    rw [Path.parse_long_index hdigits hlong, List.length_replicate]
  exact ⟨isDocument_oneWithRule text, fun lib => ⟨served_oneWithRule lib text,
    not_malformed_oneWithRule lib text, outcome_oneWithRule lib htext (.string "c") "c.json"⟩⟩

end Case

end JsonExpect
