import Mathlib.Data.List.Induction
import JsonExpect.Proofs.Options.Coherence

/-!
# Option trees as logs of calls

A tree that calls have built is read like the log of these calls. At a sequence of names a node's
own value of an option is the one that the last fitting call has set, and its bundle is changed by
every call over a subtree that the sequence leads into (`resolveAll_configured`). Which children,
templates and copies of templates the tree is made of never shows.
-/

namespace JsonExpect

/-- Whether a component of a path leads to the child of a name. -/
def Component.fits (c : Component) (name : String) : Bool := c.isWildcard || c.label == name

/-- Whether components lead along names: one component for each name, and each fits. -/
def Component.fitAll : List Component → List String → Bool
  | [], [] => true
  | c :: cs, name :: names => c.fits name && fitAll cs names
  | _, _ => false

/-- A use of `Node.set`: what is set, where, and how far it reaches. -/
structure Call where
  setting : Setting
  path : Path
  scope : Scope

namespace Call

def make (c : Call) : EStateM PathError Node Unit := Node.set c.setting c.path c.scope

/-- The tree that a call leaves, whether it is made or an index of its path stops it. -/
def after (c : Call) (n : Node) : Node :=
  match c.make n with
  | .ok _ m => m
  | .error _ m => m

theorem after_of_legible {c : Call} (h : c.path.Legible) (n : Node) :
    c.after n = n.update (.apply c.setting c.scope) c.path.components := by
  rw [after, make, Node.set, Node.navigate_of_legible _ h]

/-- A call is made if no index of its path has too many digits. -/
theorem make_of_legible {c : Call} (h : c.path.Legible) (n : Node) :
    c.make n = .ok () (c.after n) := by
  rw [after_of_legible h, make, Node.set, Node.navigate_of_legible _ h]

theorem after_of_not_legible {c : Call} (h : ¬ c.path.Legible) (n : Node) :
    c.after n = n.halted c.path.components := by
  rw [after, make, Node.set, Node.navigate_of_not_legible _ h]

/-- Else an index stops it, and nothing is set. -/
theorem make_of_not_legible {c : Call} (h : ¬ c.path.Legible) (n : Node) :
    c.make n = .error .unnamedIndex (n.halted c.path.components) :=
  Node.navigate_of_not_legible _ h n

/-- Whether the call gives the node at the end of `names` a value of its own for an option. -/
def overrides (c : Call) (k : OptionKind) (names : List String) : Bool :=
  c.setting.kind = k && (c.scope = .singleNode || k = .elementCount) &&
    Component.fitAll c.path.components names

/-- The names that the path of a call reaches down to. -/
def entry (c : Call) (names : List String) : List String := names.take c.path.length

/-- The bundles at all sequences of names after a call. A flag over a subtree changes them where the
path fits the front of the names: there the bundle at this front takes the flag and holds for all
that lies below. -/
def rebundle (σ : List String → Bundle) (c : Call) (names : List String) : Bundle :=
  match c.setting, c.scope with
  | .flag f on, .subtree =>
    if Component.fitAll c.path.components (c.entry names) then (σ (c.entry names)).put (some on) f
    else σ names
  | _, _ => σ names

end Call

namespace Node

/-- The tree that calls leave, one after the other. -/
def setEach (n : Node) (calls : List Call) : Node := calls.foldl (fun n c => c.after n) n

/-- The tree that calls leave at a node that nothing is set at. -/
def configured (calls : List Call) : Node := setEach {} calls

/-- The bundles that calls leave at all sequences of names. -/
def bundles (calls : List Call) : List String → Bundle :=
  calls.foldl Call.rebundle fun _ => {}

theorem configured_snoc (calls : List Call) (c : Call) :
    configured (calls ++ [c]) = c.after (configured calls) := by
  simp only [configured, setEach, List.foldl_append, List.foldl_cons, List.foldl_nil]

theorem bundles_snoc (calls : List Call) (c : Call) :
    bundles (calls ++ [c]) = c.rebundle (bundles calls) := by
  simp only [bundles, List.foldl_append, List.foldl_cons, List.foldl_nil]

/-- What a node without settings has, and every call keeps that can be made, holds of the tree of
such calls. -/
theorem configured_induction {P : Node → Prop} {calls : List Call}
    (h : ∀ c ∈ calls, c.path.Legible) (start : P {})
    (step : ∀ (c : Call) (n : Node), P n →
      P (update (apply c.setting c.scope) c.path.components n)) :
    P (configured calls) := by
  induction calls using List.reverseRecOn with
  | nil => exact start
  | append_singleton calls c ih =>
    obtain ⟨hcalls, hc⟩ := List.forall_mem_append.1 h
    rw [configured_snoc, Call.after_of_legible (hc c List.mem_cons_self)]
    exact step c _ (ih hcalls)

theorem coherent_configured {calls : List Call} (h : ∀ c ∈ calls, c.path.Legible) :
    (configured calls).Coherent :=
  configured_induction h (coherent_of_bare rfl rfl) fun c _ hn =>
    hn.update (uniform_apply c.setting c.scope) c.path.components

/-! ## One step down -/

@[simp] theorem resolveAll_nil (n : Node) : n.resolveAll [] = n := rfl

@[simp] theorem resolveAll_cons (n : Node) (name : String) (names : List String) :
    n.resolveAll (name :: names) = (n.resolve name).resolveAll names := rfl

theorem resolveAll_append (n : Node) (names more : List String) :
    n.resolveAll (names ++ more) = (n.resolveAll names).resolveAll more :=
  List.foldl_append

theorem Coherent.resolveAll {n : Node} (h : n.Coherent) (names : List String) :
    (n.resolveAll names).Coherent := by
  induction names generalizing n with
  | nil => exact h
  | cons name names ih => exact ih (h.resolve name)

theorem lookup_map (g : Node → Node) (ds : List (String × Node)) (name : String) :
    (ds.map fun d => (d.1, g d.2)).lookup name = (ds.lookup name).map g := by
  induction ds with
  | nil => rfl
  | cons d ds ih =>
    obtain ⟨key, e⟩ := d
    simp only [List.map_cons, List.lookup_cons]
    cases name == key with
    | true => rfl
    | false => exact ih

theorem lookup_putChild (name name' : String) (c : Node) (ds : List (String × Node)) :
    (putChild name c ds).lookup name' = if name = name' then some c else ds.lookup name' := by
  induction ds with
  | nil =>
    simp only [putChild, List.lookup_cons, List.lookup_nil]
    by_cases h : name = name'
    · simp [h]
    · rw [if_neg h, beq_false_of_ne (Ne.symm h)]
  | cons d ds ih =>
    obtain ⟨key, e⟩ := d
    unfold putChild
    by_cases hd : key = name
    · subst hd
      simp only [if_true, List.lookup_cons]
      by_cases h : key = name'
      · simp [h]
      · simp only [beq_false_of_ne (Ne.symm h), if_neg h]
    · simp only [if_neg hd, List.lookup_cons, ih]
      by_cases h : name' = key
      · subst h
        simp [if_neg (Ne.symm hd)]
      · simp only [beq_false_of_ne h]

section Update

variable {f : Node → Node} {n : Node}

/-- A change of the template and of all children reaches whatever child a setting would go to. -/
theorem childOrNew_of_wildcard (hf : Uniform f) {c : Component} (hc : c.isWildcard = true)
    (cs : List Component) (name : String) :
    (update f (c :: cs) n).childOrNew name = update f cs (n.childOrNew name) := by
  rw [update, if_pos hc]
  unfold childOrNew child?
  simp only [lookup_map]
  cases n.children.lookup name with
  | some d => rfl
  | none =>
    cases n.template with
    | none => exact (update_named hf cs (fresh (some c.label) n.defaults) (some name)).symm
    | some t => exact (update_named hf cs t (some name)).symm

theorem childOrNew_of_name {c : Component} (hc : c.isWildcard = false) (cs : List Component)
    (name : String) :
    (update f (c :: cs) n).childOrNew name =
      if c.label = name then update f cs (n.childOrNew name) else n.childOrNew name := by
  rw [update, if_neg (by simp [hc])]
  by_cases hn : c.label = name
  · subst hn
    rw [if_pos rfl, childOrNew, child?]
    simp only [lookup_putChild, if_true]
  · rw [if_neg hn]
    unfold childOrNew child?
    simp only [lookup_putChild, if_neg hn]

/-- A change behind a component is a change of every child that the component fits. -/
theorem resolve_update (hf : Uniform f) (h : n.Coherent) (c : Component) (cs : List Component)
    (name : String) :
    (update f (c :: cs) n).resolve name =
      if c.fits name then update f cs (n.resolve name) else n.resolve name := by
  rw [(h.update hf (c :: cs)).resolve_eq, h.resolve_eq, update_named hf]
  unfold Component.fits
  cases hc : c.isWildcard with
  | true =>
    rw [Bool.true_or, if_pos rfl, childOrNew_of_wildcard hf hc]
  | false =>
    rw [Bool.false_or, childOrNew_of_name hc]
    by_cases hn : c.label = name
    · rw [if_pos hn, if_pos (beq_iff_eq.2 hn)]
    · rw [if_neg hn, if_neg (by simpa using hn)]

/-- Behind components that fit the front of the names, the change shows at this front. -/
theorem resolveAll_update_of_fitAll (hf : Uniform f) (cs : List Component) (names : List String)
    (h : n.Coherent) (hfit : Component.fitAll cs (names.take cs.length) = true) :
    (update f cs n).resolveAll names =
      (f (n.resolveAll (names.take cs.length))).resolveAll (names.drop cs.length) := by
  induction cs generalizing n names with
  | nil => rfl
  | cons c cs ih =>
    cases names with
    | nil => exact absurd hfit (by simp [Component.fitAll])
    | cons name names =>
      simp only [List.length_cons, List.take_succ_cons, Component.fitAll, Bool.and_eq_true] at hfit
      rw [resolveAll_cons, resolve_update hf h, if_pos hfit.1]
      exact ih names (h.resolve name) hfit.2

/-- Behind components that do not, it shows neither in own values nor in bundles. -/
theorem resolveAll_update_of_not_fitAll (hf : Uniform f) (cs : List Component) (names : List String)
    (h : n.Coherent) (hfit : Component.fitAll cs (names.take cs.length) = false) :
    ((update f cs n).resolveAll names).own = (n.resolveAll names).own ∧
      ((update f cs n).resolveAll names).defaults = (n.resolveAll names).defaults := by
  induction cs generalizing n names with
  | nil => exact absurd hfit (by simp [Component.fitAll])
  | cons c cs ih =>
    cases names with
    | nil =>
      rw [resolveAll_nil, resolveAll_nil, update]
      split
      · exact ⟨rfl, rfl⟩
      · exact ⟨rfl, rfl⟩
    | cons name names =>
      rw [resolveAll_cons, resolveAll_cons, resolve_update hf h]
      by_cases hc : c.fits name = true
      · rw [if_pos hc]
        rw [List.length_cons, List.take_succ_cons, Component.fitAll, hc, Bool.true_and] at hfit
        exact ih names (h.resolve name) hfit
      · rw [if_neg hc]
        exact ⟨rfl, rfl⟩

end Update

/-! ## What a setting shows further down -/

@[simp] theorem own_fill (n : Node) (b : Bundle) : (n.fill b).own = n.own := by rw [fill_eq]

@[simp] theorem defaults_fill (n : Node) (b : Bundle) : (n.fill b).defaults = b := by rw [fill_eq]

theorem resolve_fill (n : Node) (b : Bundle) (name : String) :
    (n.fill b).resolve name = (n.resolve name).fill b := by
  rw [fill_eq b n]
  unfold resolve child?
  simp only [lookup_map]
  cases n.children.lookup name with
  | none =>
    cases n.template with
    | none => rw [fill_eq]; rfl
    | some t => simp only [Option.map_none, Option.map_some]; rw [fill_eq, fill_eq]
  | some c =>
    cases n.template with
    | none => simp only [Option.map_none, Option.map_some]; rw [fill_eq, fill_eq]
    | some t =>
      simp only [Option.map_some]
      rw [fill_eq b c, fill_eq b t, fill_eq]
      cases c.template <;> rfl

theorem resolveAll_fill (n : Node) (b : Bundle) (names : List String) :
    (n.fill b).resolveAll names = (n.resolveAll names).fill b := by
  induction names generalizing n with
  | nil => rfl
  | cons name names ih => rw [resolveAll_cons, resolve_fill, ih, resolveAll_cons]

theorem fitAll_eq (cs : List Component) (names : List String) :
    Component.fitAll cs names =
      (Component.fitAll cs (names.take cs.length) && (names.drop cs.length).isEmpty) := by
  induction cs generalizing names with
  | nil => cases names <;> rfl
  | cons c cs ih =>
    cases names with
    | nil => rfl
    | cons name names =>
      simp only [Component.fitAll, List.length_cons, List.take_succ_cons, List.drop_succ_cons,
        Bool.and_assoc]
      rw [ih names]

/-- A setting shows in the own values of the node alone, unless it refills. -/
theorem own_resolveAll_apply (s : Setting) (scope : Scope) (n : Node) (names : List String)
    (k : OptionKind) :
    ((apply s scope n).resolveAll names).own.setting? k =
      if s.kind = k ∧ (scope = .singleNode ∨ k = .elementCount) ∧ names = [] then some s
      else (n.resolveAll names).own.setting? k := by
  obtain ⟨happly, hlocal⟩ | ⟨f, on, rfl, rfl, happly⟩ := apply_eq s scope
  · rw [happly]
    cases names with
    | cons name names => rw [if_neg (by simp)]; rfl
    | nil =>
      rw [resolveAll_nil, resolveAll_nil, overridden, Overrides.setting?_set]
      by_cases hk : k = s.kind
      · subst hk
        rw [if_pos rfl, if_pos ⟨rfl, hlocal, rfl⟩]
      · rw [if_neg hk, if_neg (fun h => hk h.1.symm)]
  · rw [happly, refilled, resolveAll_fill, own_fill, if_neg]
    rintro ⟨rfl, h, -⟩
    rcases h with h | h <;> cases h

/-- Only what refills shows in bundles, and it shows all the way down. -/
theorem defaults_resolveAll_apply (s : Setting) (scope : Scope) (n : Node) (names : List String) :
    ((apply s scope n).resolveAll names).defaults =
      match s, scope with
      | .flag f on, .subtree => n.defaults.put (some on) f
      | _, _ => (n.resolveAll names).defaults := by
  obtain ⟨happly, hlocal⟩ | ⟨f, on, rfl, rfl, happly⟩ := apply_eq s scope
  · have hsame : ((overridden s n).resolveAll names).defaults = (n.resolveAll names).defaults := by
      cases names <;> rfl
    rw [happly, hsame]
    cases s with
    | elementCount m => rfl
    | flag f on =>
      obtain rfl | h := hlocal
      · rfl
      · cases h
  · rw [happly, refilled, resolveAll_fill, defaults_fill]

section After

variable {n : Node}

theorem resolveAll_take_drop (n : Node) (k : Nat) (names : List String) :
    (n.resolveAll (names.take k)).resolveAll (names.drop k) = n.resolveAll names := by
  rw [← resolveAll_append, List.take_append_drop]

/-- A call sets the values that it overrides and no others. -/
theorem own_resolveAll_after (h : n.Coherent) {c : Call} (hc : c.path.Legible)
    (names : List String) (k : OptionKind) :
    ((c.after n).resolveAll names).own.setting? k =
      if c.overrides k names then some c.setting else (n.resolveAll names).own.setting? k := by
  have hu := uniform_apply c.setting c.scope
  rw [Call.after_of_legible hc, Call.overrides, fitAll_eq]
  cases hfit : Component.fitAll c.path.components (names.take c.path.components.length) with
  | false =>
    rw [Bool.false_and, Bool.and_false, if_neg (by simp)]
    exact congrArg (·.setting? k) (resolveAll_update_of_not_fitAll hu _ names h hfit).1
  | true =>
    rw [resolveAll_update_of_fitAll hu _ names h hfit, own_resolveAll_apply, resolveAll_take_drop]
    simp only [Bool.and_eq_true, Bool.or_eq_true, decide_eq_true_eq, List.isEmpty_iff, true_and,
      and_assoc]

/-- A call changes the bundles as `Call.rebundle` says. -/
theorem defaults_resolveAll_after (h : n.Coherent) {c : Call} (hc : c.path.Legible)
    (names : List String) :
    ((c.after n).resolveAll names).defaults =
      c.rebundle (fun names => (n.resolveAll names).defaults) names := by
  have hu := uniform_apply c.setting c.scope
  rw [Call.after_of_legible hc, Call.rebundle]
  cases hfit : Component.fitAll c.path.components (c.entry names) with
  | false =>
    rw [(resolveAll_update_of_not_fitAll hu _ names h hfit).2]
    split <;> rfl
  | true =>
    rw [resolveAll_update_of_fitAll hu _ names h hfit, defaults_resolveAll_apply,
      resolveAll_take_drop]
    split <;> rfl

/-- Where nothing has been set, no name leads to anything else. -/
theorem resolveAll_bare (names : List String) {n : Node} (ho : n.own = {}) (hc : n.children = [])
    (ht : n.template = none) :
    (n.resolveAll names).own = {} ∧ (n.resolveAll names).defaults = n.defaults := by
  induction names generalizing n with
  | nil => exact ⟨ho, rfl⟩
  | cons name names ih =>
    have hr : n.resolve name = ⟨some name, n.defaults, {}, [], none⟩ := by
      simp only [resolve, child?, hc, ht, List.lookup_nil]
    rw [resolveAll_cons, hr]
    exact ih rfl rfl rfl

end After

/-- What a node sets itself has been set by a call. -/
theorem exists_call_of_own {calls : List Call} {names : List String} {k : OptionKind} {s : Setting}
    (hl : ∀ c ∈ calls, c.path.Legible)
    (h : ((configured calls).resolveAll names).own.setting? k = some s) :
    ∃ c ∈ calls, c.setting = s := by
  induction calls using List.reverseRecOn with
  | nil =>
    have hbare := (resolveAll_bare names (n := configured []) rfl rfl rfl).1
    rw [hbare] at h
    cases k with
    | flag f => cases f <;> cases h
    | elementCount => cases h
  | append_singleton calls c ih =>
    obtain ⟨hcalls, hc⟩ := List.forall_mem_append.1 hl
    rw [configured_snoc, own_resolveAll_after (coherent_configured hcalls)
      (hc c List.mem_cons_self)] at h
    split at h
    · exact ⟨c, by simp, Option.some.inj h⟩
    · obtain ⟨d, hd, hs⟩ := ih hcalls h
      exact ⟨d, List.mem_append_left _ hd, hs⟩

/-- What a bundle says otherwise than at the beginning has been set by a call. -/
theorem exists_call_of_defaults {calls : List Call} {names : List String} {f : Flag}
    (hl : ∀ c ∈ calls, c.path.Legible)
    (h : ((configured calls).resolveAll names).defaults.get f ≠ ({} : Bundle).get f) :
    ∃ c ∈ calls, ∃ on, c.setting = .flag f on ∧
      ((configured calls).resolveAll names).defaults.get f = some on := by
  induction calls using List.reverseRecOn generalizing names with
  | nil =>
    have hbare := (resolveAll_bare names (n := configured []) rfl rfl rfl).2
    exact absurd (congrArg (Bundle.get · f) hbare) h
  | append_singleton calls c ih =>
    obtain ⟨hcalls, hc⟩ := List.forall_mem_append.1 hl
    have hset := defaults_resolveAll_after (coherent_configured hcalls)
      (hc c List.mem_cons_self) names
    rw [← configured_snoc] at hset
    -- the call leaves this bundle as it was, or changes the bundle where its path ends
    have hearlier : ∀ names', ((configured calls).resolveAll names').defaults.get f =
          ((configured (calls ++ [c])).resolveAll names).defaults.get f →
        ∃ c' ∈ calls ++ [c], ∃ on, c'.setting = .flag f on ∧
          ((configured (calls ++ [c])).resolveAll names).defaults.get f = some on := by
      intro names' heq
      obtain ⟨d, hd, on, hs, hon⟩ := ih hcalls (heq.trans_ne h)
      exact ⟨d, List.mem_append_left _ hd, on, hs, heq.symm.trans hon⟩
    unfold Call.rebundle at hset
    split at hset
    · next g on hsetting _ =>
      split at hset
      · by_cases hfg : f = g
        · subst hfg
          refine ⟨c, by simp, on, hsetting, ?_⟩
          rw [hset, Bundle.get_put_self]
        · refine hearlier (c.entry names) ?_
          rw [hset, Bundle.get_put_of_ne _ _ hfg]
      · exact hearlier names (congrArg (Bundle.get · f) hset).symm
    · exact hearlier names (congrArg (Bundle.get · f) hset).symm

/-- **Trees are logs.** Calls in whose paths no index has too many digits are all made. At any
sequence of names, a node's own value of an option is then that of the last call that overrides it
there, and none if there is no such call; its bundle is the one that the calls, taken in order,
leave there. -/
theorem resolveAll_configured {calls : List Call} (hl : ∀ c ∈ calls, c.path.Legible)
    (names : List String) :
    (∀ c ∈ calls, ∀ n, c.make n = .ok () (c.after n)) ∧
      (∀ k, ((configured calls).resolveAll names).own.setting? k =
        ((calls.filter (·.overrides k names)).getLast?).map (·.setting)) ∧
      ((configured calls).resolveAll names).defaults = bundles calls names := by
  refine ⟨fun c hc => Call.make_of_legible (hl c hc), ?_⟩
  induction calls using List.reverseRecOn generalizing names with
  | nil =>
    obtain ⟨ho, hd⟩ := resolveAll_bare names (n := {}) rfl rfl rfl
    refine ⟨fun k => ?_, hd⟩
    rw [configured, setEach, List.foldl_nil, ho]
    cases k with
    | flag f => cases f <;> rfl
    | elementCount => rfl
  | append_singleton calls c ih =>
    obtain ⟨hcalls, hc⟩ := List.forall_mem_append.1 hl
    have hlegible := hc c List.mem_cons_self
    have h := coherent_configured hcalls
    rw [configured_snoc, bundles_snoc]
    refine ⟨fun k => ?_, ?_⟩
    · rw [own_resolveAll_after h hlegible, List.filter_append, (ih hcalls names).1 k]
      by_cases hover : c.overrides k names = true
      · rw [if_pos hover, List.filter_cons_of_pos (by exact hover), List.filter_nil,
          List.getLast?_concat]
        rfl
      · rw [if_neg hover, List.filter_cons_of_neg (by exact hover), List.filter_nil,
          List.append_nil]
    · rw [defaults_resolveAll_after h hlegible]
      exact congrArg (fun σ => c.rebundle σ names) (funext fun names => (ih hcalls names).2)

/-- A child below a template of a template: it is made by one call, and its bundle by another. -/
theorem resolveAll_configured_nested :
    let calls : List Call := [⟨.flag .exactMatch false, ⟨[.key "a"]⟩, .subtree⟩,
      ⟨.flag .anyOrder true, ⟨[.anyKey, .anyIndex]⟩, .singleNode⟩,
      ⟨.elementCount 2, ⟨[.anyKey, .index 10]⟩, .subtree⟩,
      ⟨.flag .anyOrder false, ⟨[.key "b", .index 10]⟩, .singleNode⟩]
    let own (names : List String) := ((configured calls).resolveAll names).own
    (∀ c ∈ calls, c.path.Legible) ∧
      (own ["a", "10"]).setting? (.flag .anyOrder) = some (.flag .anyOrder true) ∧
      (own ["b", "10"]).setting? (.flag .anyOrder) = some (.flag .anyOrder false) ∧
      (own ["c", "10"]).setting? .elementCount = some (.elementCount 2) ∧
      ((configured calls).resolveAll ["a", "10"]).defaults = { exactMatch := some false } := by
  intro calls own
  have hl : ∀ c ∈ calls, c.path.Legible := by decide +kernel
  have hlog := fun names => (resolveAll_configured hl names).2
  exact ⟨hl, (hlog _).1 _, (hlog _).1 _, (hlog _).1 _, (hlog _).2.trans (by decide +kernel)⟩

/-- Behind two wildcards an index that is too long leaves a template in the template. -/
theorem after_of_long_index {i : Nat} (h : hasLongNumeral i = true) (s : Setting) (scope : Scope)
    (n : Node) :
    Call.after ⟨s, ⟨[.anyKey, .anyKey, .index i]⟩, scope⟩ n =
      n.withTemplate ((n.templateOrNew .anyKey).withTemplate
        ((n.templateOrNew .anyKey).templateOrNew .anyKey)) := by
  have hlong := Component.not_legible_of_hasLongNumeral h
  have hend : ∀ m : Node, m.halted [.index i] = m := fun m => if_neg hlong
  have hstopped : ¬ Path.Legible ⟨[.anyKey, .anyKey, .index i]⟩ := by
    simp [Path.Legible, hlong]
  rw [Call.after_of_not_legible hstopped, halted, halted, hend, hend]
  rfl

theorem configured_snoc_long_index {i : Nat} (h : hasLongNumeral i = true) (calls : List Call)
    (s : Setting) (scope : Scope) :
    configured (calls ++ [⟨s, ⟨[.anyKey, .anyKey, .index i]⟩, scope⟩]) =
      (configured calls).withTemplate (((configured calls).templateOrNew .anyKey).withTemplate
        (((configured calls).templateOrNew .anyKey).templateOrNew .anyKey)) := by
  rw [configured_snoc, after_of_long_index h]

/-- Where an index stops a call, trees are no logs: the template in the template, which the call has
made on its way, is read in place of the bundle that an earlier call has left beside. -/
theorem configured_stopped :
    let calls : List Call := [⟨.flag .anyOrder true, ⟨[.key "a"]⟩, .subtree⟩,
      ⟨.flag .anyOrder true, ⟨[.anyKey, .anyKey, .index (Nat.pow 10 longestNumeral)]⟩, .singleNode⟩]
    ((configured calls).resolveAll ["a", "c"]).defaults = {} ∧
      bundles calls ["a", "c"] = { anyOrder := some true } := by
  obtain ⟨i, hi, hlong⟩ := exists_hasLongNumeral
  rw [← hi]
  intro calls
  have htree := configured_snoc_long_index hlong [⟨.flag .anyOrder true, ⟨[.key "a"]⟩, .subtree⟩]
    (.flag .anyOrder true) .singleNode
  refine ⟨?_, rfl⟩
  rw [show configured calls = _ from htree]
  decide +kernel

end Node

end JsonExpect
