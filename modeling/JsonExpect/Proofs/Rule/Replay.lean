import JsonExpect.Proofs.Assertion.Atomicity
import JsonExpect.Proofs.Path.Failure
import JsonExpect.Proofs.Validation.Totality
import JsonExpect.Proofs.Yields
import JsonExpect.Rule.Basic

/-!
# What rules leave behind

Rules are calls: replayed on an assertion whose options calls have built, they add calls with their
own settings and change nothing else, unless the text of a path cannot be read
(`Rule.applyAll_cases`). So a number of entries is required somewhere only if some rule requires it
(`Node.exists_call_of_requiresLongCount`).
-/

namespace JsonExpect

namespace Node

theorem configured_append (calls more : List Call) :
    configured (calls ++ more) = (configured calls).setEach more :=
  List.foldl_append

/-- A number of entries that is required at some names has been set by a call. -/
theorem exists_call_of_elementCount {calls : List Call} (hl : ∀ c ∈ calls, c.path.Legible)
    {names : List String} {n : Int}
    (h : ((configured calls).resolveAll names).elementCount = some n) :
    ∃ c ∈ calls, c.setting = .elementCount n := by
  have hown : ((configured calls).resolveAll names).own.setting? .elementCount =
      some (.elementCount n) := congrArg (Option.map Setting.elementCount) h
  exact exists_call_of_own hl hown

theorem exists_call_of_requiresLongCount {calls : List Call} (hl : ∀ c ∈ calls, c.path.Legible)
    {actual : Value} (hactual : ∀ l ∈ actual.locations, ∀ k ∈ l, k.isWritable = true)
    (h : (configured calls).requiresLongCount actual = true) :
    ∃ c ∈ calls, ∃ n, c.setting = .elementCount n ∧ hasLongNumeral n = true := by
  obtain ⟨l, hl', hlong⟩ := List.any_eq_true.1 h
  obtain ⟨n, hn, hlong⟩ := (Option.any_eq_true ..).1 hlong
  rw [along_eq_resolveAll (hactual l hl')] at hn
  obtain ⟨c, hc, hsetting⟩ := exists_call_of_elementCount hl hn
  exact ⟨c, hc, n, hsetting, hlong⟩

end Node

/-- Only one directive sets a number of entries. -/
theorem Directive.eq_of_setting {n : Int} :
    ∀ {d : Directive}, d.setting = .elementCount n → d = .elementCount n
  | .scoped d _, h => by cases d <;> cases h
  | .keyMustBeAbsent, h => by cases h
  | .elementCount _, h => by cases h; rfl

namespace Rule

/-- The text of a path of the rule cannot be read. -/
def Unreadable (r : Rule) (e : PathError) : Prop := ∃ text ∈ r.paths, Path.parse text = .error e

/-- The texts of all paths of some rules can be read. -/
def Readable (rules : List Rule) : Prop :=
  ∀ r ∈ rules, ∀ text ∈ r.paths, ∃ p, Path.parse text = .ok p

theorem pathsOfAll_cases (texts : List String) :
    (∀ text ∈ texts, ∃ p, Path.parse text = .ok p) ∧
        (∃ ps, PathArgument.pathsOfAll (texts.map fun t => .value (.string t)) = .ok ps ∧
          ∀ p ∈ ps, p.Legible) ∨
      ∃ e, (∃ text ∈ texts, Path.parse text = .error e) ∧
        PathArgument.pathsOfAll (texts.map fun t => .value (.string t)) = .error e := by
  induction texts with
  | nil => exact .inl ⟨List.forall_mem_nil _, [], rfl, List.forall_mem_nil _⟩
  | cons text texts ih =>
    rw [List.map_cons, PathArgument.pathsOfAll]
    simp only [PathArgument.paths, pathsOfValue, Path.ofValue?]
    cases htext : Path.parse text with
    | error e => exact .inr ⟨e, ⟨text, List.mem_cons_self, htext⟩, rfl⟩
    | ok p =>
      obtain ⟨hread, ps, hps, hlegible⟩ | ⟨e, ⟨text', hmem, htext'⟩, he⟩ := ih
      · exact .inl ⟨List.forall_mem_cons.2 ⟨⟨p, htext⟩, hread⟩, p :: ps, by simp [hps],
          List.forall_mem_cons.2 ⟨Path.legible_of_parse htext, hlegible⟩⟩
      · exact .inr ⟨e, ⟨text', List.mem_cons_of_mem _ hmem, htext'⟩, by simp [he]⟩

/-- Without paths the root stands for them, which can be followed as well. -/
theorem pathsOrRoot_legible {ps : List Path} (h : ∀ p ∈ ps, p.Legible) :
    ∃ qs, pathsOrRoot (.ok ps) = .ok qs ∧ ∀ q ∈ qs, q.Legible := by
  rw [pathsOrRoot]
  split
  · exact ⟨_, rfl, List.forall_mem_singleton.2 (List.forall_mem_nil _)⟩
  · exact ⟨_, rfl, h⟩

/-- A rule makes its setting at paths that can be followed, or the text of one cannot be read. -/
theorem apply_cases (r : Rule) (a : Assertion) :
    (∀ text ∈ r.paths, ∃ p, Path.parse text = .ok p) ∧
        (∃ ps, (∀ p ∈ ps, p.Legible) ∧ r.apply a = .ok { a with
          options := a.options.setEach (Assertion.settings r.directive ps) }) ∨
      ∃ e, r.Unreadable e ∧ r.apply a = .error e := by
  let args : List PathArgument := r.paths.map fun p => .value (.string p)
  have hgroup : (PathArgument.group args).paths = pathsOrRoot (PathArgument.pathsOfAll args) := by
    rw [PathArgument.paths]
  rw [apply, Assertion.direct]
  obtain ⟨hread, ps, hps, hlegible⟩ | ⟨e, htext, he⟩ := pathsOfAll_cases r.paths
  · obtain ⟨qs, hqs, hlegible⟩ := pathsOrRoot_legible hlegible
    refine .inl ⟨hread, qs, hlegible, ?_⟩
    have hfollow := Assertion.follow_of_ok (d := r.directive)
      (hgroup.trans ((congrArg pathsOrRoot hps).trans hqs)) a
    rw [EStateM.run, hfollow, Assertion.setAll_of_legible _ hlegible]
  · have hfollow := Assertion.follow_of_error (d := r.directive)
      (hgroup.trans (congrArg pathsOrRoot he)) a
    exact .inr ⟨e, htext, by rw [EStateM.run, hfollow]⟩

/-- Rules are replayed one after the other. -/
theorem applyAll_append (rules rules' : List Rule) (a : Assertion) :
    applyAll (rules ++ rules') a = applyAll rules a >>= applyAll rules' := by
  induction rules generalizing a with
  | nil => rfl
  | cons r rules ih =>
    rw [List.cons_append, applyAll, applyAll]
    cases r.apply a with
    | error e => rfl
    | ok a => exact ih a

/-- Replayed rules add calls with their settings to the options, at paths that can be followed, or
the text of a path cannot be read. -/
theorem applyAll_cases (rules : List Rule) {a : Assertion} {before : List Call}
    (h : a.options = Node.configured before) :
    Readable rules ∧
        (∃ more : List Call, (∀ c ∈ more, c.path.Legible ∧
            ∃ r ∈ rules, c.setting = r.directive.setting) ∧
          applyAll rules a = .ok { a with options := Node.configured (before ++ more) }) ∨
      ∃ e, (∃ r ∈ rules, r.Unreadable e) ∧ applyAll rules a = .error e := by
  induction rules generalizing a before with
  | nil =>
    refine .inl ⟨List.forall_mem_nil _, [], List.forall_mem_nil _, ?_⟩
    rw [List.append_nil, ← h]
    rfl
  | cons r rules ih =>
    rw [applyAll]
    obtain ⟨hread, ps, hlegible, hps⟩ | ⟨e, hr, he⟩ := r.apply_cases a
    · let first := Assertion.settings r.directive ps
      rw [hps, h, ← Node.configured_append]
      obtain ⟨hreads, more, hmore, hrules⟩ | ⟨e, ⟨r', hr', hunreadable⟩, he⟩ :=
        ih (a := { a with options := Node.configured (before ++ first) }) rfl
      · refine .inl ⟨List.forall_mem_cons.2 ⟨hread, hreads⟩, first ++ more,
          List.forall_mem_append.2 ⟨?_, fun c hc => ?_⟩, ?_⟩
        · exact List.forall_mem_map.2 fun p hp => ⟨hlegible p hp, r, List.mem_cons_self, rfl⟩
        · obtain ⟨hpath, r', hr', hsetting⟩ := hmore c hc
          exact ⟨hpath, r', List.mem_cons_of_mem _ hr', hsetting⟩
        · rw [← List.append_assoc]
          exact hrules
      · exact .inr ⟨e, ⟨r', List.mem_cons_of_mem _ hr', hunreadable⟩, he⟩
    · exact .inr ⟨e, ⟨r, List.mem_cons_self, hr⟩, by rw [he]⟩

end Rule

end JsonExpect
