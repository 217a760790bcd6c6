import JsonExpect.Assertion.Call
import JsonExpect.Proofs.Options.Log
import JsonExpect.Proofs.Yields

/-!
# Calls that are made as a whole or not at all

A call reads its scope or its count and all of its paths before the first setting, so a call that
is refused leaves no trace, wherever in its arguments the mistake stands. A call that is granted
makes its setting at each leaf of its arguments, from left to right (`Assertion.perform_atomic`). A
leaf is what stands in the arguments and is no list; an empty list is a leaf as well, and stands for
the root. Between the two stands a call that an index of too many digits stops: this shows only when
the path is followed, and the settings before it have been made
(`Assertion.perform_stopped_not_atomic`).

So what a test has set after any number of calls is what the granted ones have set and the stopped
ones have begun, in their order (`Assertion.performAll_eq_setEach`).
-/

namespace JsonExpect

/-! ## Leaves -/

/-- What nested arguments come down to. -/
inductive Leaf where
  | path (p : Path)
  | value (v : Value)
  /-- An empty list. -/
  | empty

/-- The path that a leaf stands for. -/
def Leaf.path? : Leaf → Except PathError Path
  | .path p => .ok p
  | .value v => Path.ofValue? v
  | .empty => .ok .root

mutual

/-- The leaves of a raw value from left to right. -/
def valueLeaves : Value → List Leaf
  | .array [] => [.empty]
  | .array (v :: rest) => valueLeaves v ++ valuesLeaves rest
  | .tuple [] => [.empty]
  | .tuple (v :: rest) => valueLeaves v ++ valuesLeaves rest
  | v => [.value v]

/-- The leaves of raw values in turn. -/
def valuesLeaves : List Value → List Leaf
  | [] => []
  | v :: rest => valueLeaves v ++ valuesLeaves rest

end

namespace PathArgument

mutual

/-- The leaves of an argument from left to right. -/
def leaves : PathArgument → List Leaf
  | .path p => [.path p]
  | .value v => valueLeaves v
  | .group [] => [.empty]
  | .group (a :: rest) => leaves a ++ leavesOfAll rest

/-- The leaves of arguments in turn. -/
def leavesOfAll : List PathArgument → List Leaf
  | [] => []
  | a :: rest => leaves a ++ leavesOfAll rest

end

end PathArgument

/-- Where there are leaves there is a path, and the root is not put in. -/
theorem pathsOrRoot_mapM {ls : List Leaf} (h : ls ≠ []) :
    pathsOrRoot (ls.mapM Leaf.path?) = ls.mapM Leaf.path? := by
  cases hps : ls.mapM Leaf.path? with
  | error e => rfl
  | ok ps =>
    have hlength := (mapM_eq_ok_iff.1 hps).length_eq
    have hne : ps ≠ [] := by
      rintro rfl
      exact h (List.eq_nil_of_length_eq_zero hlength)
    simp only [pathsOrRoot, List.isEmpty_iff, if_neg hne]

theorem valueLeaves_ne_nil (v : Value) : valueLeaves v ≠ [] := by
  unfold valueLeaves
  split
  · exact List.cons_ne_nil _ _
  · exact List.append_ne_nil_of_left_ne_nil (valueLeaves_ne_nil _) _
  · exact List.cons_ne_nil _ _
  · exact List.append_ne_nil_of_left_ne_nil (valueLeaves_ne_nil _) _
  · exact List.cons_ne_nil _ _

theorem PathArgument.leaves_ne_nil : (a : PathArgument) → a.leaves ≠ []
  | .path _ | .group [] => List.cons_ne_nil _ _
  | .value v => valueLeaves_ne_nil v
  | .group (a :: rest) => by
    rw [leaves]
    exact List.append_ne_nil_of_left_ne_nil (leaves_ne_nil a) _

mutual

theorem pathsOfValue_eq_mapM : (v : Value) → pathsOfValue v = (valueLeaves v).mapM Leaf.path?
  | .array [] | .tuple [] => rfl
  | .array (v :: rest) => by
    rw [pathsOfValue, pathsOfValues_eq_mapM (v :: rest)]
    exact pathsOrRoot_mapM (valueLeaves_ne_nil (.array (v :: rest)))
  | .tuple (v :: rest) => by
    rw [pathsOfValue, pathsOfValues_eq_mapM (v :: rest)]
    exact pathsOrRoot_mapM (valueLeaves_ne_nil (.tuple (v :: rest)))
  | .missing | .null | .bool _ | .int _ | .float _ | .string _ | .object _ | .set _ | .moment _
  | .bytes .. | .responder _ | .record _ => by
    simp only [pathsOfValue, valueLeaves, List.mapM_cons, List.mapM_nil, Leaf.path?]
    split <;> rename_i h <;> rw [h] <;> rfl

theorem pathsOfValues_eq_mapM :
    (vs : List Value) → pathsOfValues vs = (valuesLeaves vs).mapM Leaf.path?
  | [] => rfl
  | v :: rest => by
    rw [pathsOfValues, pathsOfValue_eq_mapM v, pathsOfValues_eq_mapM rest, valuesLeaves,
      List.mapM_append]
    cases (valueLeaves v).mapM Leaf.path? with
    | error e => rfl
    | ok ps => cases (valuesLeaves rest).mapM Leaf.path? <;> rfl

end

namespace PathArgument

mutual

theorem paths_eq_mapM : (a : PathArgument) → a.paths = a.leaves.mapM Leaf.path?
  | .path _ | .group [] => rfl
  | .value v => pathsOfValue_eq_mapM v
  | .group (a :: rest) => by
    rw [paths, pathsOfAll_eq_mapM (a :: rest)]
    exact pathsOrRoot_mapM (leaves_ne_nil (.group (a :: rest)))

theorem pathsOfAll_eq_mapM :
    (args : List PathArgument) → pathsOfAll args = (leavesOfAll args).mapM Leaf.path?
  | [] => rfl
  | a :: rest => by
    rw [pathsOfAll, paths_eq_mapM a, pathsOfAll_eq_mapM rest, leavesOfAll, List.mapM_append]
    cases a.leaves.mapM Leaf.path? with
    | error e => rfl
    | ok ps => cases (leavesOfAll rest).mapM Leaf.path? <;> rfl

end

end PathArgument

/-! ## What a call asks for -/

namespace OptionCall

/-- The setting that a call makes and how far it reaches. -/
inductive Sets : OptionCall → Setting → Scope → Prop
  | noScope (d : ScopedDirective) : Sets (.withScope d none) d.setting .singleNode
  | withScope (d : ScopedDirective) (scope : Scope) :
      Sets (.withScope d (some (.string scope.name))) d.setting scope
  | keyMustBeAbsent : Sets .keyMustBeAbsent (.flag .keyMustBeAbsent true) .singleNode
  | elementCount (n : Int) : Sets (.elementCount (.int n)) (.elementCount n) .singleNode

/-- Why a call is refused. Of the leaves that stand for no path the first one counts. -/
inductive Refused (args : List PathArgument) : OptionCall → CallError → Prop
  | scope (d : ScopedDirective) {given : Value} (h : ∀ scope : Scope, given ≠ .string scope.name) :
      Refused args (.withScope d (some given)) (.scope (.scope given))
  | count {given : Value} (h : ∀ n, given ≠ .int n) :
      Refused args (.elementCount given) (.count given)
  | path {call : OptionCall} {s : Setting} {scope : Scope} (hsets : call.Sets s scope)
      {before after : List Leaf} {leaf : Leaf} {e : PathError}
      (hleaves : (PathArgument.group args).leaves = before ++ leaf :: after)
      (hbefore : ∀ l ∈ before, ∃ p, l.path? = .ok p) (hleaf : leaf.path? = .error e) :
      Refused args call (.path e)

/-- What a call sets that is granted: one setting, at each of the leaves in turn. -/
inductive Granted (args : List PathArgument) : OptionCall → List Call → Prop
  | sets {call : OptionCall} {s : Setting} {scope : Scope} (hsets : call.Sets s scope)
      {ps : List Path}
      (hpaths : List.Forall₂ (fun l p => l.path? = .ok p) (PathArgument.group args).leaves ps)
      (hlegible : ∀ p ∈ ps, p.Legible) : Granted args call (ps.map fun p => ⟨s, p, scope⟩)

/-- What a call begins that an index stops: the setting at the leaves in turn, up to the first path
that cannot be followed. -/
inductive Stopped (args : List PathArgument) : OptionCall → List Call → Prop
  | sets {call : OptionCall} {s : Setting} {scope : Scope} (hsets : call.Sets s scope)
      {before after : List Path} {p : Path}
      (hpaths : List.Forall₂ (fun l p => l.path? = .ok p) (PathArgument.group args).leaves
        (before ++ p :: after))
      (hbefore : ∀ q ∈ before, q.Legible) (hstop : ¬ p.Legible) :
      Stopped args call ((before ++ [p]).map fun p => ⟨s, p, scope⟩)

variable {call : OptionCall} {args : List PathArgument} {s : Setting} {scope : Scope}

/-- A call sets something, or is refused wherever it is made. -/
theorem sets_or_refused (call : OptionCall) :
    (∃ s scope, call.Sets s scope) ∨ ∀ args, ∃ e, call.Refused args e := by
  cases call with
  | withScope d given =>
    cases given with
    | none => exact .inl ⟨_, _, .noScope d⟩
    | some given =>
      by_cases h : ∃ scope : Scope, given = .string scope.name
      · obtain ⟨scope, rfl⟩ := h
        exact .inl ⟨_, _, .withScope d scope⟩
      · exact .inr fun args => ⟨_, .scope d (not_exists.1 h)⟩
  | keyMustBeAbsent => exact .inl ⟨_, _, .keyMustBeAbsent⟩
  | elementCount given =>
    by_cases h : ∃ n, given = .int n
    · obtain ⟨n, rfl⟩ := h
      exact .inl ⟨_, _, .elementCount n⟩
    · exact .inr fun args => ⟨_, .count (not_exists.1 h)⟩

/-- Of some paths each is legible, or there is a first that is not. -/
theorem legible_or_first (ps : List Path) :
    (∀ p ∈ ps, p.Legible) ∨ ∃ before p after, ps = before ++ p :: after ∧
      (∀ q ∈ before, q.Legible) ∧ ¬ p.Legible := by
  induction ps with
  | nil => exact .inl (List.forall_mem_nil _)
  | cons p ps ih =>
    by_cases hp : p.Legible
    · obtain h | ⟨before, q, after, rfl, hbefore, hq⟩ := ih
      · exact .inl (List.forall_mem_cons.2 ⟨hp, h⟩)
      · exact .inr ⟨p :: before, q, after, rfl, List.forall_mem_cons.2 ⟨hp, hbefore⟩, hq⟩
    · exact .inr ⟨[], p, ps, rfl, List.forall_mem_nil _, hp⟩

theorem refused_or_granted_or_stopped (call : OptionCall) (args : List PathArgument) :
    (∃ e, call.Refused args e) ∨ (∃ made, call.Granted args made) ∨
      ∃ made, call.Stopped args made := by
  obtain ⟨s, scope, hsets⟩ | hrefused := call.sets_or_refused
  · cases hps : (PathArgument.group args).leaves.mapM Leaf.path? with
    | error e =>
      obtain ⟨before, leaf, after, hleaves, hbefore, hleaf⟩ := mapM_eq_error_iff.1 hps
      exact .inl ⟨_, .path hsets hleaves hbefore hleaf⟩
    | ok ps =>
      have hpaths := mapM_eq_ok_iff.1 hps
      obtain hlegible | ⟨before, p, after, rfl, hbefore, hstop⟩ := legible_or_first ps
      · exact .inr (.inl ⟨_, .sets hsets hpaths hlegible⟩)
      · exact .inr (.inr ⟨_, .sets hsets hpaths hbefore hstop⟩)
  · exact .inl (hrefused args)

theorem Sets.directive? (h : call.Sets s scope) :
    ∃ d, call.directive? = .ok d ∧ d.setting = s ∧ d.scope = scope := by
  cases h with
  | noScope d => exact ⟨_, rfl, rfl, rfl⟩
  | withScope d scope => cases scope <;> exact ⟨_, rfl, rfl, rfl⟩
  | keyMustBeAbsent => exact ⟨_, rfl, rfl, rfl⟩
  | elementCount n => exact ⟨_, rfl, rfl, rfl⟩

end OptionCall

theorem Scope.ofValue?_eq_error {given : Value} (h : ∀ scope : Scope, given ≠ .string scope.name) :
    Scope.ofValue? given = .error (.scope given) := by
  unfold Scope.ofValue?
  split
  · exact absurd rfl (h .singleNode)
  · exact absurd rfl (h .subtree)
  · rfl

theorem Directive.elementCount?_eq_none {given : Value} (h : ∀ n, given ≠ .int n) :
    Directive.elementCount? given = none := by
  unfold Directive.elementCount?
  split
  · exact absurd rfl (h _)
  · rfl

/-! ## Making calls -/

namespace Assertion

variable {call : OptionCall} {args : List PathArgument} {made : List Call}

/-- The settings that a directive makes at paths. -/
def settings (d : Directive) (ps : List Path) : List Call := ps.map fun p => ⟨d.setting, p, d.scope⟩

/-- Settings at paths that can be followed are made in place, one after the other. -/
theorem setAll_of_legible (d : Directive) {ps : List Path} (h : ∀ p ∈ ps, p.Legible)
    (a : Assertion) :
    setAll d ps a = .ok () { a with options := a.options.setEach (settings d ps) } := by
  induction ps generalizing a with
  | nil => rfl
  | cons p ps ih =>
    obtain ⟨hp, hps⟩ := List.forall_mem_cons.1 h
    let c : Call := ⟨d.setting, p, d.scope⟩
    have hfirst : onPart Assertion.options (fun a n => { a with options := n }) c.make a =
        .ok () { a with options := c.after a.options } := onPart_of_ok (Call.make_of_legible hp _)
    exact (bind_of_ok hfirst _).trans (ih hps _)

/-- The first path that cannot be followed stops them. -/
theorem setAll_of_not_legible (d : Directive) {before after : List Path} {p : Path}
    (hbefore : ∀ q ∈ before, q.Legible) (hstop : ¬ p.Legible) (a : Assertion) :
    setAll d (before ++ p :: after) a = .error .unnamedIndex
      { a with options := a.options.setEach (settings d (before ++ [p])) } := by
  induction before generalizing a with
  | nil =>
    let c : Call := ⟨d.setting, p, d.scope⟩
    have hfirst : onPart Assertion.options (fun a n => { a with options := n }) c.make a =
        .error .unnamedIndex { a with options := c.after a.options } := by
      rw [Call.after_of_not_legible hstop]
      exact onPart_of_error (Call.make_of_not_legible hstop _)
    exact bind_of_error hfirst _
  | cons q before ih =>
    obtain ⟨hq, hbefore⟩ := List.forall_mem_cons.1 hbefore
    let c : Call := ⟨d.setting, q, d.scope⟩
    have hfirst : onPart Assertion.options (fun a n => { a with options := n }) c.make a =
        .ok () { a with options := c.after a.options } := onPart_of_ok (Call.make_of_legible hq _)
    exact (bind_of_ok hfirst _).trans (ih hbefore _)

/-- A directive at arguments that are all paths makes its settings. -/
theorem follow_of_ok {d : Directive} {ps : List Path} (h : (PathArgument.group args).paths = .ok ps)
    (a : Assertion) : follow d args a = setAll d ps a := by
  rw [follow, h]
  rfl

theorem follow_of_error {d : Directive} {e : PathError}
    (h : (PathArgument.group args).paths = .error e) (a : Assertion) :
    follow d args a = .error e a := by
  rw [follow, h]
  rfl

/-- A call in place does what its directive does. -/
theorem perform_eq {d : Directive} (hd : call.directive? = .ok d) (a : Assertion) :
    (perform call args).run a =
      match follow d args a with
      | .ok _ b => .ok () b
      | .error e b => .error (.path e) b := by
  rw [perform, hd]
  change EStateM.adaptExcept CallError.path (follow d args) a = _
  rw [EStateM.adaptExcept]
  cases follow d args a <;> rfl

theorem perform_of_refused {e : CallError} (h : call.Refused args e) (a : Assertion) :
    (perform call args).run a = .error e a := by
  cases h with
  | scope d h =>
    rw [perform, OptionCall.directive?, Scope.ofValue?_eq_error h]
    rfl
  | count h =>
    rw [perform, OptionCall.directive?, Directive.elementCount?_eq_none h]
    rfl
  | path hsets hleaves hbefore hleaf =>
    obtain ⟨d, hd, -, -⟩ := hsets.directive?
    rw [perform_eq hd, follow_of_error]
    rw [PathArgument.paths_eq_mapM, mapM_eq_error_iff.2 ⟨_, _, _, hleaves, hbefore, hleaf⟩]

theorem perform_of_granted (h : call.Granted args made) (a : Assertion) :
    (perform call args).run a = .ok () { a with options := a.options.setEach made } := by
  obtain ⟨hsets, hpaths, hlegible⟩ := h
  obtain ⟨d, hd, rfl, rfl⟩ := hsets.directive?
  have hps := (PathArgument.paths_eq_mapM (.group args)).trans (mapM_eq_ok_iff.2 hpaths)
  rw [perform_eq hd, follow_of_ok hps, setAll_of_legible d hlegible]
  rfl

theorem perform_of_stopped (h : call.Stopped args made) (a : Assertion) :
    (perform call args).run a =
      .error (.path .unnamedIndex) { a with options := a.options.setEach made } := by
  obtain ⟨hsets, hpaths, hbefore, hstop⟩ := h
  obtain ⟨d, hd, rfl, rfl⟩ := hsets.directive?
  have hps := (PathArgument.paths_eq_mapM (.group args)).trans (mapM_eq_ok_iff.2 hpaths)
  rw [perform_eq hd, follow_of_ok hps, setAll_of_not_legible d hbefore hstop]
  rfl

/-- **Calls are atomic**, unless an index stops them. A call is refused, granted or stopped. If it
is refused, the assertion is what it was before. If it is granted, its setting has been made at all
leaves of the arguments, from left to right. If it is stopped, it fails and leaves what it has
begun: the setting at the leaves before the one whose path has an index of too many digits. -/
theorem perform_atomic (call : OptionCall) (args : List PathArgument) (a : Assertion) :
    ((∃ e, call.Refused args e) ∨ (∃ made, call.Granted args made) ∨
        ∃ made, call.Stopped args made) ∧
      (∀ e, call.Refused args e → (perform call args).run a = .error e a) ∧
      (∀ made, call.Granted args made →
        (perform call args).run a = .ok () { a with options := a.options.setEach made }) ∧
      ∀ made, call.Stopped args made → (perform call args).run a =
        .error (.path .unnamedIndex) { a with options := a.options.setEach made } :=
  ⟨call.refused_or_granted_or_stopped args, fun _ h => perform_of_refused h a,
    fun _ h => perform_of_granted h a, fun _ h => perform_of_stopped h a⟩

/-- A list within a list stands for the root; where a number stands, nothing is set, not even at the
paths before it. -/
theorem perform_atomic_nested :
    let a : Assertion := { expected := .array [], actual := .array [.null] }
    let call := OptionCall.withScope .equalCount (some (.string "subtree"))
    let args (last : PathArgument) := [PathArgument.value (.string "a"), .group [.group [], last]]
    let made (p : Path) : Call := ⟨.flag .equalCount true, p, .subtree⟩
    (perform call (args (.path ⟨[.anyIndex]⟩))).run a = .ok () { a with
        options := a.options.setEach [made ⟨[.key "a"]⟩, made .root, made ⟨[.anyIndex]⟩] } ∧
      (perform call (args (.value (.int 5)))).run a = .error (.path (.notSequence (.int 5))) a := by
  intro a call args made
  have hsets : call.Sets (.flag .equalCount true) .subtree := .withScope .equalCount .subtree
  have hkey : (Leaf.value (.string "a")).path? = .ok ⟨[.key "a"]⟩ :=
    eq_ok_of_toOption (by decide +kernel)
  constructor
  · have hpaths : List.Forall₂ (fun (l : Leaf) p => l.path? = .ok p)
        (PathArgument.group (args (.path ⟨[.anyIndex]⟩))).leaves
        [⟨[.key "a"]⟩, .root, ⟨[.anyIndex]⟩] :=
      .cons hkey (.cons rfl (.cons rfl .nil))
    exact (perform_atomic call _ a).2.2.1 _ (.sets hsets hpaths (by decide +kernel))
  · have hleaves : (PathArgument.group (args (.value (.int 5)))).leaves =
        [.value (.string "a"), .empty] ++ .value (.int 5) :: [] := rfl
    have hbefore : ∀ l ∈ [Leaf.value (.string "a"), .empty], ∃ p, l.path? = .ok p :=
      List.forall_mem_cons.2 ⟨⟨_, hkey⟩, List.forall_mem_singleton.2 ⟨_, rfl⟩⟩
    exact (perform_atomic call _ a).2.1 _ (.path hsets hleaves hbefore rfl)

/-- A call that fails at its second path has been made at the first. -/
theorem perform_stopped_not_atomic :
    let a : Assertion := { expected := .array [], actual := .array [] }
    let args := [PathArgument.value (.string "a"), .path ⟨[.index (Nat.pow 10 longestNumeral)]⟩]
    ∃ b, (perform (.withScope .anyOrder none) args).run a = .error (.path .unnamedIndex) b ∧
      (b.options.child? "a").isSome ∧ (a.options.child? "a").isNone := by
  obtain ⟨i, hi, hlong⟩ := exists_hasLongNumeral
  rw [← hi]
  intro a args
  have hstop : ¬ Path.Legible ⟨[.index i]⟩ := by
    simp [Path.Legible, Component.not_legible_of_hasLongNumeral hlong]
  have hkey : (Leaf.value (.string "a")).path? = .ok ⟨[.key "a"]⟩ :=
    eq_ok_of_toOption (by decide +kernel)
  have hpaths : List.Forall₂ (fun (l : Leaf) p => l.path? = .ok p) (PathArgument.group args).leaves
      ([⟨[.key "a"]⟩] ++ ⟨[.index i]⟩ :: []) := .cons hkey (.cons rfl .nil)
  have hrun := perform_of_stopped
    (.sets (.noScope .anyOrder) hpaths (by decide +kernel) hstop) a
  refine ⟨_, hrun, ?_, by decide +kernel⟩
  -- the index stops before it makes a node, so the settings before it are all there is
  have hkept : ∀ s n, Call.after ⟨s, ⟨[.index i]⟩, .singleNode⟩ n = n := fun s n =>
    (Call.after_of_not_legible (c := ⟨s, _, _⟩) hstop n).trans
      (if_neg (Component.not_legible_of_hasLongNumeral hlong))
  simp only [List.map_append, List.map_cons, List.map_nil, Node.setEach, List.foldl_append,
    List.foldl_cons, List.foldl_nil, hkept]
  decide +kernel

/-- The assertion that calls leave, be they refused, granted or stopped. -/
def performAll (a : Assertion) : List (OptionCall × List PathArgument) → Assertion
  | [] => a
  | (call, args) :: calls =>
    match (perform call args).run a with
    | .ok _ b => b.performAll calls
    | .error _ b => b.performAll calls

/-- Calls leave what the granted ones among them have set and the stopped ones have begun, in their
order. -/
theorem performAll_eq_setEach (calls : List (OptionCall × List PathArgument)) (a : Assertion) :
    ∃ made : List (List Call),
      List.Forall₂ (fun c settings => c.1.Granted c.2 settings ∨ c.1.Stopped c.2 settings ∨
        settings = [] ∧ ∃ e, c.1.Refused c.2 e) calls made ∧
      a.performAll calls = { a with options := a.options.setEach made.flatten } := by
  induction calls generalizing a with
  | nil => exact ⟨[], .nil, rfl⟩
  | cons c calls ih =>
    obtain ⟨call, args⟩ := c
    -- whatever the call leaves, it leaves by settings
    have hstep : ∃ settings, (call.Granted args settings ∨ call.Stopped args settings ∨
          settings = [] ∧ ∃ e, call.Refused args e) ∧
        a.performAll ((call, args) :: calls) =
          performAll { a with options := a.options.setEach settings } calls := by
      obtain ⟨e, h⟩ | ⟨settings, h⟩ | ⟨settings, h⟩ := call.refused_or_granted_or_stopped args
      · exact ⟨[], .inr (.inr ⟨rfl, e, h⟩), by rw [performAll, perform_of_refused h]; rfl⟩
      · exact ⟨settings, .inl h, by rw [performAll, perform_of_granted h]⟩
      · exact ⟨settings, .inr (.inl h), by rw [performAll, perform_of_stopped h]⟩
    obtain ⟨settings, hsettings, hfirst⟩ := hstep
    obtain ⟨made, hmade, hall⟩ := ih { a with options := a.options.setEach settings }
    refine ⟨settings :: made, .cons hsettings hmade, hfirst.trans (hall.trans ?_)⟩
    simp only [Node.setEach, List.flatten_cons, List.foldl_append]

end Assertion

end JsonExpect
