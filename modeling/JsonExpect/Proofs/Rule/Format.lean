import JsonExpect.Proofs.Value.Canonical
import JsonExpect.Proofs.Yields
import JsonExpect.Rule.Basic

/-!
# The format of rules

A mapping writes a rule if its fields fit together: the option is known, paths are texts, the scope
is one that the option can have, and there is a count just where the option asks for one. Only such
mappings are read as rules, each as the rule that its fields say (`Rule.parse_eq_ok_iff`), and a
rule that has been read is read again from its mapping form (`Rule.parse_accepts_iff`).

What is refused is shown in the error. So an integer that is too long to be written keeps even the
refusal from being told (`Rule.parse_long_integer`).
-/

namespace JsonExpect

theorem Value.isNull_iff {v : Value} : v.isNull = true ↔ v = .null := by
  cases v <;> simp [isNull]

theorem Scope.ofValue?_eq_ok_iff {v : Value} {scope : Scope} :
    Scope.ofValue? v = .ok scope ↔ v = .string scope.name := by
  unfold ofValue?
  split
  · cases scope <;> simp [name]
  · cases scope <;> simp [name]
  · next hsingle hsubtree =>
    cases scope with
    | singleNode => exact iff_of_false nofun hsingle
    | subtree => exact iff_of_false nofun hsubtree

theorem ScopedDirective.ofName?_eq_some_iff {name : String} {d : ScopedDirective} :
    ofName? name = some d ↔ d.name = name := by
  constructor
  · intro h
    have hname := List.find?_some h
    exact of_decide_eq_true hname
  · rintro rfl
    cases d <;> rfl

theorem ScopedDirective.name_ne (d : ScopedDirective) :
    d.name ≠ "key_must_be_absent" ∧ d.name ≠ "element_count" := by
  cases d <;> decide

namespace Directive

/-- What a directive has as its count: one on the number of entries that number, any other none. -/
def Takes (d : Directive) (count : Value) : Prop :=
  match d with
  | .elementCount n => 0 ≤ n ∧ count = .int n
  | _ => count = .null

theorem name_mem_optionNames : ∀ d : Directive, d.name ∈ Rule.optionNames
  | .scoped d _ => List.mem_append_left _ (List.mem_map_of_mem (by cases d <;> decide))
  | .keyMustBeAbsent => by simp [name, Rule.optionNames]
  | .elementCount _ => by simp [name, Rule.optionNames]

/-- Each option that a rule may name is the name of a directive. -/
theorem exists_name_eq {option : String} (h : option ∈ Rule.optionNames) :
    (∃ d : ScopedDirective, d.name = option) ∨ option = keyMustBeAbsent.name ∨
      option = (elementCount 0).name := by
  rcases List.mem_append.1 h with h | h
  · obtain ⟨d, _, hd⟩ := List.mem_map.1 h
    exact .inl ⟨d, hd⟩
  · rcases List.mem_cons.1 h with rfl | h
    · exact .inr (.inl rfl)
    · exact .inr (.inr (List.mem_singleton.1 h))

variable {d : Directive}

/-- The directives that reach over a subtree are not those on a single node. -/
theorem name_ne_of_subtree (h : d.scope = .subtree) :
    d.name ≠ "key_must_be_absent" ∧ d.name ≠ "element_count" :=
  match d, h with
  | .scoped d _, _ => d.name_ne

theorem eq_elementCount_of_name (h : d.name = "element_count") : ∃ n, d = .elementCount n :=
  match d, h with
  | .scoped d _, h => absurd h d.name_ne.2
  | .keyMustBeAbsent, h => absurd h (by decide)
  | .elementCount n, _ => ⟨n, rfl⟩

theorem takes_iff_of_name_ne (h : d.name ≠ "element_count") {count : Value} :
    d.Takes count ↔ count = .null :=
  match d, h with
  | .scoped _ _, _ => .rfl
  | .keyMustBeAbsent, _ => .rfl
  | .elementCount _, h => absurd rfl h

end Directive

namespace Rule

-- Seven options with a scope and two on a single node.
example : optionNames = ["any_order", "strict_order", "equal_count", "flexible_count",
    "exact_match", "type_match", "value_not_equal", "key_must_be_absent", "element_count"] := rfl

variable {option : String} {members : List (Key × Value)} {r : Rule} {v : Value}

/-! ## Fields -/

theorem texts?_eq_some_iff {vs : List Value} {texts : List String} :
    texts? vs = some texts ↔ vs = texts.map .string := by
  induction vs generalizing texts with
  | nil => cases texts <;> simp [texts?]
  | cons v vs ih =>
    cases v with
    | string s =>
      rw [texts?, Option.map_eq_some_iff]
      cases texts with
      | nil => simp
      | cons t texts => simp [ih, and_comm]
    | _ => cases texts <;> simp [texts?]

/-- The texts of paths that a value gives. -/
inductive GivesPaths : Value → List String → Prop where
  | nothing {v : Value} (h : v.isGiven = false) : GivesPaths v []
  | text {s : String} (ne : s ≠ "") : GivesPaths (.string s) [s]
  | texts (texts : List String) : GivesPaths (.array (texts.map .string)) texts

theorem parsePaths_eq_ok_iff {paths : List String} :
    parsePaths option v = .ok paths ↔ GivesPaths v paths := by
  constructor
  · intro h
    unfold parsePaths at h
    split at h
    · next hnothing =>
      cases h
      exact .nothing (by simpa using hnothing)
    · next hgiven =>
      split at h
      · next s =>
        cases h
        exact .text (by rintro rfl; exact hgiven rfl)
      · split at h
        · next items ps hps =>
          cases h
          rw [texts?_eq_some_iff.1 hps]
          exact .texts _
        · cases h
      · cases h
  · intro h
    unfold parsePaths
    cases h with
    | nothing h => simp [h]
    | text ne => simp [Value.isGiven, ne]
    | texts =>
      cases paths with
      | nil => rfl
      | cons text texts =>
        have htexts : texts? ((text :: texts).map .string) = some (text :: texts) :=
          texts?_eq_some_iff.2 rfl
        simp only [htexts]
        rfl

/-- The scope that a field gives, a single node where there is none. -/
def GivesScope (field : Option Value) (scope : Scope) : Prop :=
  field = none ∧ scope = .singleNode ∨ field = some (.string scope.name)

theorem parseScope_eq_ok_iff {field : Option Value} {scope : Scope} :
    parseScope option field = .ok scope ↔ GivesScope field scope := by
  unfold parseScope GivesScope
  cases field with
  | none => simp [eq_comm]
  | some v =>
    have hscope : Scope.ofValue? v = .ok scope ↔ v = .string scope.name :=
      Scope.ofValue?_eq_ok_iff
    cases hv : Scope.ofValue? v <;> rw [hv] at hscope <;> simpa [hv] using hscope

theorem parseDirective_eq_ok_iff {scope : Scope} {count : Value} {d : Directive}
    (hoption : option ∈ optionNames) :
    parseDirective option scope count = .ok d ↔
      d.name = option ∧ d.scope = scope ∧ d.Takes count := by
  constructor
  · intro h
    unfold parseDirective at h
    split at h
    · next d' hd' =>
      split at h
      · next hnull =>
        cases h
        exact ⟨ScopedDirective.ofName?_eq_some_iff.1 hd', rfl, Value.isNull_iff.1 hnull⟩
      · cases h
    · next hname =>
      split at h
      · cases h
      · next hscope =>
        have hsingle : scope = .singleNode := by
          cases scope with
          | singleNode => rfl
          | subtree => exact absurd rfl hscope
        split at h
        · next hcount =>
          split at h
          · split at h
            · cases h
            · next hn =>
              cases h
              exact ⟨hcount.symm, hsingle.symm, Int.not_lt.1 hn, rfl⟩
          · cases h
        · next hcount =>
          split at h
          · next hnull =>
            cases h
            obtain ⟨d, hd⟩ | hkey | hother := Directive.exists_name_eq hoption
            · rw [ScopedDirective.ofName?_eq_some_iff.2 hd] at hname
              cases hname
            · exact ⟨hkey.symm, hsingle.symm, Value.isNull_iff.1 hnull⟩
            · exact absurd hother hcount
          · cases h
  · rintro ⟨rfl, rfl, htakes⟩
    match d, htakes with
    | .scoped d scope, htakes =>
      obtain rfl : count = .null := htakes
      have hname : ScopedDirective.ofName? d.name = some d :=
        ScopedDirective.ofName?_eq_some_iff.2 rfl
      simp [parseDirective, Directive.name, Directive.scope, hname, Value.isNull]
    | .keyMustBeAbsent, htakes =>
      obtain rfl : count = .null := htakes
      rfl
    | .elementCount n, ⟨hn, hcount⟩ =>
      rw [hcount]
      exact if_neg (Int.not_lt.2 hn)

/-! ## Mappings -/

/-- The mapping of some members writes a rule, field by field. -/
structure Writes (members : List (Key × Value)) (r : Rule) : Prop where
  option : findMember? (.string "option") members = some (.string r.directive.name)
  paths : GivesPaths ((findMember? (.string "paths") members).getD .null) r.paths
  scope : GivesScope (findMember? (.string "scope") members) r.directive.scope
  count : r.directive.Takes ((findMember? (.string "count") members).getD .null)

/-- A value is read as the rule that it writes, and as no other. -/
theorem parse_eq_ok_iff :
    parse v = .ok r ↔ ∃ members, v = .object members ∧ Writes members r := by
  constructor
  · intro h
    cases v with
    | object members =>
      refine ⟨members, rfl, ?_⟩
      unfold parse at h
      simp only at h
      split at h
      · next option hoption =>
        split at h
        · next hknown =>
          obtain ⟨paths, hpaths, h⟩ := bind_eq_ok_iff.1 h
          obtain ⟨scope, hscope, h⟩ := bind_eq_ok_iff.1 h
          obtain ⟨d, hd, h⟩ := bind_eq_ok_iff.1 h
          obtain rfl := Except.ok.inj h
          obtain ⟨rfl, rfl, htakes⟩ := (parseDirective_eq_ok_iff hknown).1 hd
          refine ⟨?_, parsePaths_eq_ok_iff.1 hpaths, parseScope_eq_ok_iff.1 hscope, htakes⟩
          cases hfound : findMember? (.string "option") members with
          | none => rw [hfound] at hoption; cases hoption
          | some w => rw [hfound] at hoption; exact congrArg some hoption
        · cases h
      · cases h
    | _ => cases h
  · rintro ⟨members, rfl, h⟩
    have hdirective := (parseDirective_eq_ok_iff r.directive.name_mem_optionNames).2
      ⟨rfl, rfl, h.count⟩
    unfold parse
    simp only [h.option, Option.getD_some, if_pos r.directive.name_mem_optionNames]
    exact bind_eq_ok_iff.2 ⟨_, parsePaths_eq_ok_iff.2 h.paths,
      bind_eq_ok_iff.2 ⟨_, parseScope_eq_ok_iff.2 h.scope, bind_eq_ok_iff.2 ⟨_, hdirective, rfl⟩⟩⟩

/-! ## Fields that fit together -/

/-- The fields of a mapping fit together as those of a rule with an option. -/
structure Fits (name : String) (members : List (Key × Value)) : Prop where
  option : findMember? (.string "option") members = some (.string name)
  known : name ∈ optionNames
  paths : ∀ v, findMember? (.string "paths") members = some v →
    v.isGiven = false ∨ (∃ s, v = .string s) ∨ ∃ texts : List String, v = .array (texts.map .string)
  scope : ∀ v, findMember? (.string "scope") members = some v →
    v = .string "single_node" ∨
      v = .string "subtree" ∧ name ≠ "key_must_be_absent" ∧ name ≠ "element_count"
  count : name = "element_count" →
    ∃ n : Nat, findMember? (.string "count") members = some (.int n)
  uncounted : name ≠ "element_count" →
    ∀ v, findMember? (.string "count") members = some v → v = .null

/-- A value is a mapping whose fields fit together as those of a rule. -/
def IsForm (v : Value) : Prop := ∃ members, v = .object members ∧ ∃ name, Fits name members

theorem exists_givesPaths_iff {field : Option Value} :
    (∃ paths, GivesPaths (field.getD .null) paths) ↔ ∀ v, field = some v →
      v.isGiven = false ∨ (∃ s, v = .string s) ∨
        ∃ texts : List String, v = .array (texts.map .string) := by
  constructor
  · rintro ⟨paths, h⟩ v rfl
    rw [Option.getD_some] at h
    cases h with
    | nothing h => exact .inl h
    | text => exact .inr (.inl ⟨_, rfl⟩)
    | texts => exact .inr (.inr ⟨_, rfl⟩)
  · intro h
    cases field with
    | none => exact ⟨[], .nothing rfl⟩
    | some v =>
      obtain hnothing | ⟨s, rfl⟩ | ⟨texts, rfl⟩ := h v rfl
      · exact ⟨[], .nothing hnothing⟩
      · by_cases hs : s = ""
        · exact ⟨[], .nothing (by simp [Value.isGiven, hs])⟩
        · exact ⟨[s], .text hs⟩
      · exact ⟨texts, .texts texts⟩

theorem getD_null_iff {field : Option Value} :
    field.getD .null = .null ↔ ∀ v, field = some v → v = .null := by
  cases field <;> simp

/-- The fields of a mapping that writes a rule fit together. -/
theorem Writes.fits (h : Writes members r) : Fits r.directive.name members where
  option := h.option
  known := r.directive.name_mem_optionNames
  paths := exists_givesPaths_iff.1 ⟨_, h.paths⟩
  scope := by
    intro v hv
    obtain ⟨hnone, -⟩ | hscope := h.scope
    · rw [hnone] at hv
      cases hv
    · obtain rfl := Option.some.inj (hv.symm.trans hscope)
      cases hreach : r.directive.scope with
      | singleNode => exact .inl rfl
      | subtree => exact .inr ⟨rfl, Directive.name_ne_of_subtree hreach⟩
  count := by
    intro hname
    obtain ⟨n, hn⟩ := Directive.eq_elementCount_of_name hname
    have htakes := h.count
    rw [hn] at htakes
    obtain ⟨hnonneg, hcount⟩ := htakes
    refine ⟨n.toNat, ?_⟩
    rw [Int.toNat_of_nonneg hnonneg]
    cases hfound : findMember? (.string "count") members with
    | none => rw [hfound] at hcount; cases hcount
    | some w => rw [hfound] at hcount; exact congrArg some hcount
  uncounted hname := getD_null_iff.1 ((Directive.takes_iff_of_name_ne hname).1 h.count)

/-- Fields that fit together write a rule. -/
theorem Fits.exists_writes {name : String} (h : Fits name members) : ∃ r, Writes members r := by
  have hsingle : name = "key_must_be_absent" ∨ name = "element_count" →
      GivesScope (findMember? (.string "scope") members) .singleNode := by
    intro hname
    cases hfound : findMember? (.string "scope") members with
    | none => exact .inl ⟨rfl, rfl⟩
    | some v =>
      obtain rfl | ⟨-, hkey, hcount⟩ := h.scope v hfound
      · exact .inr rfl
      · exact (hname.elim hkey hcount).elim
  have hnull : name ≠ "element_count" →
      (findMember? (.string "count") members).getD .null = .null :=
    fun hname => getD_null_iff.2 (h.uncounted hname)
  have hdirective : ∃ d : Directive, d.name = name ∧
      GivesScope (findMember? (.string "scope") members) d.scope ∧
        d.Takes ((findMember? (.string "count") members).getD .null) := by
    obtain ⟨d, hd⟩ | hname | hname := Directive.exists_name_eq h.known
    · have hcount := hnull (hd ▸ d.name_ne.2)
      cases hfound : findMember? (.string "scope") members with
      | none => exact ⟨.scoped d .singleNode, hd, .inl ⟨rfl, rfl⟩, hcount⟩
      | some v =>
        obtain rfl | ⟨rfl, -⟩ := h.scope v hfound
        · exact ⟨.scoped d .singleNode, hd, .inr rfl, hcount⟩
        · exact ⟨.scoped d .subtree, hd, .inr rfl, hcount⟩
    · have hne : name ≠ "element_count" := by
        rw [hname]
        decide
      exact ⟨.keyMustBeAbsent, hname.symm, hsingle (.inl hname), hnull hne⟩
    · obtain ⟨n, hn⟩ := h.count hname
      refine ⟨.elementCount n, hname.symm, hsingle (.inr hname), Int.natCast_nonneg n, ?_⟩
      rw [hn, Option.getD_some]
  obtain ⟨paths, hpaths⟩ := exists_givesPaths_iff.2 h.paths
  obtain ⟨d, rfl, hscope, hcount⟩ := hdirective
  exact ⟨⟨d, paths⟩, h.option, hpaths, hscope, hcount⟩

/-- Just the values whose fields fit together are read as rules. -/
theorem exists_parse_eq_ok_iff : (∃ r, parse v = .ok r) ↔ IsForm v := by
  constructor
  · rintro ⟨r, hr⟩
    obtain ⟨members, rfl, h⟩ := parse_eq_ok_iff.1 hr
    exact ⟨members, rfl, _, h.fits⟩
  · rintro ⟨members, rfl, _, h⟩
    obtain ⟨r, hr⟩ := h.exists_writes
    exact ⟨r, parse_eq_ok_iff.2 ⟨members, rfl, hr⟩⟩

/-! ## Refusals -/

variable {e : RuleError}

theorem shown?_of_parsePaths (h : parsePaths option v = .error e) : e.shown? = none := by
  unfold parsePaths at h
  split at h
  · cases h
  · split at h
    · cases h
    · split at h
      · cases h
      · cases h; rfl
    · cases h; rfl

theorem shown?_of_parseScope {field : Option Value} (h : parseScope option field = .error e) :
    e.shown? = field := by
  cases field with
  | none => cases h
  | some v =>
    unfold parseScope at h
    simp only at h
    split at h
    · cases h
    · cases h; rfl

theorem shown?_of_parseDirective {scope : Scope} {count : Value}
    (h : parseDirective option scope count = .error e) : e.shown? = none := by
  unfold parseDirective at h
  split at h
  · split at h
    · cases h
    · cases h; rfl
  · split at h
    · cases h; rfl
    · split at h
      · split at h
        · split at h
          · cases h; rfl
          · cases h
        · cases h; rfl
      · split at h
        · cases h
        · cases h; rfl

/-- What a refusal shows stands in the value that is refused, unless no integer stands in it. -/
theorem holds_of_parse_eq_error (h : parse v = .error e) {w : Value} (hw : e.shown? = some w)
    (hlong : w.holdsLongInteger = true) : v.Holds w := by
  have hmember : ∀ {name : String} {members : List (Key × Value)},
      findMember? (.string name) members = some w → (Value.object members).Holds w :=
    fun hfound => .part (Value.mem_parts_of_findMember? hfound) (.self w)
  cases v with
  | object members =>
    unfold parse at h
    simp only at h
    split at h
    · split at h
      · obtain hpaths | ⟨paths, _, h⟩ := bind_eq_error_iff.1 h
        · rw [shown?_of_parsePaths hpaths] at hw
          cases hw
        · obtain hscope | ⟨scope, _, h⟩ := bind_eq_error_iff.1 h
          · rw [shown?_of_parseScope hscope] at hw
            exact hmember hw
          · obtain hdirective | ⟨d, _, h⟩ := bind_eq_error_iff.1 h
            · rw [shown?_of_parseDirective hdirective] at hw
              cases hw
            · cases h
      · cases h
        cases hw
        cases hlong
    · cases h
      obtain rfl := Option.some.inj hw
      cases hfound : findMember? (.string "option") members with
      | none => rw [hfound] at hlong; cases hlong
      | some w => rw [hfound] at hmember; exact hmember hfound
  | _ =>
    cases h
    cases hw
    exact .self _

/-- A refusal can be told unless an integer stands in the value that is too long to be written. -/
theorem isShowable_of_parse_eq_error (h : parse v = .error e) (hv : v.holdsLongInteger = false) :
    e.isShowable = true := by
  have hshown : ¬ e.shown?.any Value.holdsLongInteger = true := by
    intro hany
    obtain ⟨w, hw, hlong⟩ := (Option.any_eq_true ..).1 hany
    have hvlong := Value.holdsLongInteger_of_holds (holds_of_parse_eq_error h hw hlong) hlong
    rw [hv] at hvlong
    cases hvlong
  rw [RuleError.isShowable, Bool.eq_false_iff.2 hshown]
  rfl

/-! ## Mapping forms -/

/-- The mapping form of a rule writes the rule, if the number of entries that it may require is none
below zero. -/
theorem writes_document (h : Writes members r) :
    ∃ members', r.document = .object members' ∧ Writes members' r := by
  obtain ⟨d, paths⟩ := r
  match d, h.count with
  | .scoped d scope, _ => exact ⟨_, rfl, rfl, .texts paths, .inr rfl, rfl⟩
  | .keyMustBeAbsent, _ => exact ⟨_, rfl, rfl, .texts paths, .inl ⟨rfl, rfl⟩, rfl⟩
  | .elementCount n, hcount => exact ⟨_, rfl, rfl, .texts paths, .inl ⟨rfl, rfl⟩, hcount.1, rfl⟩

/-- A rule that has been read is read again from its mapping form. -/
theorem parse_document (h : parse v = .ok r) : parse r.document = .ok r := by
  obtain ⟨members, rfl, hwrites⟩ := parse_eq_ok_iff.1 h
  exact parse_eq_ok_iff.2 (writes_document hwrites)

theorem parseAll_documents {rules : List Rule} (h : ∀ r ∈ rules, ∃ v, parse v = .ok r) :
    parseAll (.array (rules.map document)) = .ok rules := by
  change parseList (rules.map document) = .ok rules
  induction rules with
  | nil => rfl
  | cons r rules ih =>
    obtain ⟨⟨v, hv⟩, h⟩ := List.forall_mem_cons.1 h
    exact bind_eq_ok_iff.2 ⟨r, parse_document hv, bind_eq_ok_iff.2 ⟨rules, ih h, rfl⟩⟩

/-- **The format of rules.** A value is read as a rule exactly if it is a mapping whose fields fit
together, and as the rule that they say. Any other is refused, which can be told unless an integer
in it is too long to be written. A rule that has been read, and each list of such rules, is read
again from its mapping form, so it does the same to every assertion. -/
theorem parse_accepts_iff (v : Value) :
    ((∃ r, parse v = .ok r) ↔ IsForm v) ∧
      (¬ IsForm v → ∃ e, parse v = .error e ∧
        (v.holdsLongInteger = false → e.isShowable = true)) ∧
      (∀ r, parse v = .ok r →
        (∃ members, v = .object members ∧ Writes members r) ∧ parse r.document = .ok r) ∧
      ∀ rules : List Rule, (∀ r ∈ rules, ∃ w, parse w = .ok r) →
        ∃ read, parseAll (.array (rules.map document)) = .ok read ∧ read = rules ∧
          ∀ a, applyAll read a = applyAll rules a := by
  refine ⟨exists_parse_eq_ok_iff, fun hform => ?_, fun r hr => ?_, fun rules hrules => ?_⟩
  · cases h : parse v with
    | ok r => exact absurd (exists_parse_eq_ok_iff.1 ⟨r, h⟩) hform
    | error e => exact ⟨e, rfl, isShowable_of_parse_eq_error h⟩
  · exact ⟨parse_eq_ok_iff.1 hr, parse_document hr⟩
  · exact ⟨rules, parseAll_documents hrules, rfl, fun _ => rfl⟩

/-- A number of entries at one path, with the fields in another order and the default scope written
out: it is left out when the rule is written again. -/
theorem parse_accepts_iff_count :
    let v := Value.object [(.string "paths", .string "items"), (.string "count", .int 3),
      (.string "scope", .string "single_node"), (.string "option", .string "element_count")]
    let again := Value.object [(.string "option", .string "element_count"),
      (.string "paths", .array [.string "items"]), (.string "count", .int 3)]
    let r : Rule := ⟨.elementCount 3, ["items"]⟩
    IsForm v ∧ parse v = .ok r ∧ r.document = again ∧ parse again = .ok r ∧
      ∃ read, parseAll (.array [again]) = .ok read ∧ read = [r] ∧
        ∀ a, applyAll read a = applyAll [r] a := by
  intro v again r
  have hr : parse v = .ok r := eq_ok_of_toOption (by decide +kernel)
  obtain ⟨hform, -, hagain, hlist⟩ := parse_accepts_iff v
  exact ⟨hform.1 ⟨r, hr⟩, hr, rfl, (hagain r hr).2,
    hlist [r] (List.forall_mem_singleton.2 ⟨v, hr⟩)⟩

/-- An integer alone is no rule, but if it is too long to be written, then this cannot be told. -/
theorem parse_long_integer :
    let v := Value.int ↑(Nat.pow 10 longestNumeral)
    ¬ IsForm v ∧ (∃ e, parse v = .error e ∧ e.isShowable = false) ∧
      ¬ ∀ v, ¬ IsForm v → ∃ e, parse v = .error e ∧ e.isShowable = true := by
  obtain ⟨i, hi, hlong⟩ := exists_hasLongNumeral
  rw [← hi]
  intro v
  have hform : ¬ IsForm v := by
    rintro ⟨_, hmapping, _⟩
    exact Value.noConfusion hmapping
  have hparse : parse v = .error (.notMapping v) := rfl
  have hshow : (RuleError.notMapping v).isShowable = false := by
    have hholds : v.holdsLongInteger = true := hlong
    rw [RuleError.isShowable, RuleError.shown?, Option.any_some, hholds]
    rfl
  refine ⟨hform, ⟨_, hparse, hshow⟩, fun htold => ?_⟩
  obtain ⟨e, he, htrue⟩ := htold v hform
  obtain rfl := Except.error.inj (hparse.symm.trans he)
  rw [hshow] at htrue
  cases htrue

end Rule

end JsonExpect
