import JsonExpect.Proofs.Options.Log

/-!
# Children that need no template

`Node.resolve` falls back from a child to the template beside it, but in a tree that calls have
built nothing ever falls back: at every node, in children and templates at any depth, resolving the
name of a child gives the child itself (`Node.resolve_eq_child`). The child has whatever the
template has, because the tree is coherent, and it bears the name that it is kept under, because the
tree is `Labelled`. A change behind a path keeps both: it renames no node, and a child that it makes
takes the name that it is put under. A call that an index stops changes a template and none of the
children beside it, so it leaves a tree that is not coherent (`Node.resolve_ne_child_stopped`).
-/

namespace JsonExpect

namespace Overrides

theorem setting?_orElse (o fallback : Overrides) (k : OptionKind) :
    (o.orElse fallback).setting? k = (o.setting? k <|> fallback.setting? k) := by
  cases k with
  | flag f =>
    have hget : (o.orElse fallback).get f = (o.get f <|> fallback.get f) := by cases f <;> rfl
    simp only [setting?, hget, Option.orElse_eq_orElse, Option.orElse_eq_or, Option.map_or]
  | elementCount =>
    simp only [setting?, orElse, Option.orElse_eq_orElse, Option.orElse_eq_or, Option.map_or]

theorem orElse_eq_left_iff {α : Type} {a b : Option α} :
    (a <|> b) = a ↔ (b.isSome → a.isSome) := by
  refine ⟨fun h hb => ?_, orElse_eq_left⟩
  cases a with
  | some _ => rfl
  | none =>
    have hnone : b = none := h
    rw [hnone] at hb
    exact hb

/-- Nothing falls back only where all that could has been set. -/
theorem orElse_eq_iff {o fallback : Overrides} : o.orElse fallback = o ↔ fallback.Within o := by
  refine ⟨fun h k hk => ?_, orElse_eq_of_within⟩
  have hboth := setting?_orElse o fallback k
  rw [h] at hboth
  rw [hboth]
  cases o.setting? k with
  | some s => rfl
  | none => exact hk

end Overrides

namespace Node

/-- A tree holds itself and whatever its children and its template hold. -/
inductive Holds : Node → Node → Prop where
  | self (n : Node) : Holds n n
  | child {n m : Node} {d : String × Node} (mem : d ∈ n.children) (inside : Holds d.2 m) : Holds n m
  | template {n t m : Node} (beside : n.template = some t) (inside : Holds t m) : Holds n m

/-- At every node of the tree each child bears the name that it is kept under. -/
inductive Labelled : Node → Prop where
  | intro {n : Node} (names : ∀ d ∈ n.children, d.2.name = some d.1)
      (children : ∀ d ∈ n.children, Labelled d.2) (template : ∀ t ∈ n.template, Labelled t) :
      Labelled n

section Labelled

variable {n : Node}

theorem Labelled.name (h : n.Labelled) {d : String × Node} (hd : d ∈ n.children) :
    d.2.name = some d.1 := by
  obtain ⟨names, _, _⟩ := h; exact names d hd

theorem Labelled.child (h : n.Labelled) {d : String × Node} (hd : d ∈ n.children) :
    d.2.Labelled := by
  obtain ⟨_, children, _⟩ := h; exact children d hd

theorem Labelled.template (h : n.Labelled) {t : Node} (ht : n.template = some t) : t.Labelled := by
  obtain ⟨_, _, template⟩ := h; exact template t ht

/-- The node itself may bear any name and hold any values. -/
theorem Labelled.of_same_below (h : n.Labelled) {m : Node} (hc : m.children = n.children)
    (ht : m.template = n.template) : m.Labelled :=
  .intro (hc ▸ fun _ => h.name) (hc ▸ fun _ => h.child) (ht ▸ fun _ => h.template)

theorem labelled_of_bare (hc : n.children = []) (ht : n.template = none) : n.Labelled :=
  .intro (by simp [hc]) (by simp [hc]) (by simp [ht])

/-- The child that a setting would go to bears the name already. -/
theorem Labelled.childOrNew (h : n.Labelled) (name : String) :
    (n.childOrNew name).name = some name ∧ (n.childOrNew name).Labelled := by
  unfold Node.childOrNew
  cases hc : n.child? name with
  | some c =>
    have hmem := mem_children_of_child? hc
    exact ⟨h.name hmem, h.child hmem⟩
  | none =>
    cases ht : n.template with
    | some t => exact ⟨rfl, (h.template ht).of_same_below rfl rfl⟩
    | none => exact ⟨rfl, labelled_of_bare rfl rfl⟩

/-! ## Changes that keep names -/

section Update

variable {f : Node → Node}

theorem name_update (hf : Uniform f) (cs : List Component) (n : Node) :
    (update f cs n).name = n.name := by
  have hself : n.named n.name = n := by cases n; rfl
  have hsame := congrArg Node.name (update_named hf cs n n.name)
  rw [hself] at hsame
  exact hsame

/-- Wherever a change that keeps labels is applied, labels are kept. -/
theorem Labelled.update (hf : Uniform f) (hkeep : ∀ n : Node, n.Labelled → (f n).Labelled)
    (cs : List Component) (h : n.Labelled) : (update f cs n).Labelled := by
  induction cs generalizing n with
  | nil => exact hkeep n h
  | cons c cs ih =>
    unfold Node.update
    split
    · -- a wildcard: every child and the template, made first if there is none
      have hbase : (n.template.getD (fresh (some c.label) n.defaults)).Labelled := by
        cases ht : n.template with
        | none => exact labelled_of_bare rfl rfl
        | some t => exact h.template ht
      refine .intro (fun d hd => ?_) (fun d hd => ?_) (fun t ht => ?_)
      · obtain ⟨e, he, rfl⟩ := List.mem_map.1 hd
        exact (name_update hf cs e.2).trans (h.name he)
      · obtain ⟨e, he, rfl⟩ := List.mem_map.1 hd
        exact ih (h.child he)
      · cases ht
        exact ih hbase
    · obtain ⟨hname, hnew⟩ := h.childOrNew c.label
      refine .intro (fun d hd => ?_) (fun d hd => ?_) (fun t ht => h.template ht)
      · rcases mem_putChild hd with rfl | hd
        · exact (name_update hf cs _).trans hname
        · exact h.name hd
      · rcases mem_putChild hd with rfl | hd
        · exact ih hnew
        · exact h.child hd

end Update

@[simp] theorem name_fill (n : Node) (b : Bundle) : (n.fill b).name = n.name := by rw [fill_eq]

theorem Labelled.fill (h : n.Labelled) (b : Bundle) : (n.fill b).Labelled := by
  induction h with
  | intro names _ _ ihc iht =>
    rw [fill_eq]
    refine .intro (fun d hd => ?_) (fun d hd => ?_) (fun t ht => ?_)
    · obtain ⟨e, he, rfl⟩ := List.mem_map.1 hd
      exact (name_fill e.2 b).trans (names e he)
    · obtain ⟨e, he, rfl⟩ := List.mem_map.1 hd
      exact ihc e he
    · obtain ⟨u, hu, rfl⟩ := Option.map_eq_some_iff.1 ht
      exact iht u hu

theorem Labelled.apply (h : n.Labelled) (s : Setting) (scope : Scope) :
    (apply s scope n).Labelled := by
  obtain ⟨happly, -⟩ | ⟨f, on, -, -, happly⟩ := apply_eq s scope
  · rw [happly]
    exact h.of_same_below rfl rfl
  · rw [happly]
    exact h.fill _

end Labelled

theorem labelled_configured {calls : List Call} (h : ∀ c ∈ calls, c.path.Legible) :
    (configured calls).Labelled :=
  configured_induction h (labelled_of_bare rfl rfl) fun c _ hn =>
    hn.update (uniform_apply c.setting c.scope) (fun _ h => h.apply c.setting c.scope) _

/-! ## Inside a tree -/

variable {n m : Node}

/-- What every node hands down to its children and its template holds throughout the tree. -/
theorem Holds.inherits {P : Node → Prop} (hm : n.Holds m)
    (children : ∀ {n : Node}, P n → ∀ {d : String × Node}, d ∈ n.children → P d.2)
    (template : ∀ {n : Node}, P n → ∀ {t : Node}, n.template = some t → P t) (h : P n) : P m := by
  induction hm with
  | self => exact h
  | child mem _ ih => exact ih (children h mem)
  | template beside _ ih => exact ih (template h beside)

theorem Coherent.of_holds (h : n.Coherent) (hm : n.Holds m) : m.Coherent :=
  hm.inherits Coherent.child Coherent.template h

theorem Labelled.of_holds (h : n.Labelled) (hm : n.Holds m) : m.Labelled :=
  hm.inherits Labelled.child Labelled.template h

/-- Resolving the name of a child gives this child just when it bears the name and nothing that it
lacks is set at the template. -/
theorem resolve_eq_child_iff {name : String} {c : Node} (hc : n.child? name = some c) :
    n.resolve name = c ↔
      c.name = some name ∧ ∀ t, n.template = some t → t.Covers c := by
  obtain ⟨label, defaults, own, children, template⟩ := c
  unfold resolve
  rw [hc]
  cases n.template with
  | none => simp [eq_comm]
  | some t =>
    simp only [mk.injEq, true_and, Overrides.orElse_eq_iff,
      Overrides.orElse_eq_left_iff, Option.some.injEq, forall_eq']
    exact ⟨fun ⟨hname, hown, ht⟩ => ⟨hname.symm, hown, ht⟩,
      fun ⟨hname, hcovers⟩ => ⟨hname.symm, hcovers.own, hcovers.template⟩⟩

/-- **No child falls back.** At every node that a tree of calls holds, in templates as well,
resolving the name of a child gives the child itself: whatever is set at the template beside it is
set at the child, and the child has a template of its own if that template has one. No index may
have stopped a call. -/
theorem resolve_eq_child {calls : List Call} (hl : ∀ c ∈ calls, c.path.Legible) {name : String}
    {c : Node} (hn : (configured calls).Holds n) (hc : n.child? name = some c) :
    n.resolve name = c ∧ ∀ t, n.template = some t → t.Covers c := by
  have hmem := mem_children_of_child? hc
  have hname : c.name = some name := ((labelled_configured hl).of_holds hn).name hmem
  have hcovers : ∀ t, n.template = some t → t.Covers c := fun t ht =>
    ((coherent_configured hl).of_holds hn).covers ht hmem
  exact ⟨(resolve_eq_child_iff hc).2 ⟨hname, hcovers⟩, hcovers⟩

/-- Inside a template: its child `c` starts as a copy of the template of this template, and is
changed with it afterwards. -/
theorem resolve_eq_child_copied :
    let calls : List Call := [⟨.flag .exactMatch false, ⟨[.key "a", .key "b"]⟩, .subtree⟩,
      ⟨.flag .anyOrder true, ⟨[.anyKey, .anyKey, .anyIndex]⟩, .singleNode⟩,
      ⟨.elementCount 3, ⟨[.anyKey, .key "c"]⟩, .singleNode⟩,
      ⟨.flag .equalCount false, ⟨[.anyIndex, .anyKey]⟩, .singleNode⟩]
    (∀ c ∈ calls, c.path.Legible) ∧ ∃ n t c : Node,
      (configured calls).Holds n ∧ n.template = some t ∧ n.child? "c" = some c ∧
      t.own = { equalCount := some false } ∧
      c.own = { equalCount := some false, elementCount := some 3 } ∧
      n.resolve "c" = c ∧ t.Covers c := by
  intro calls
  have hl : ∀ c ∈ calls, c.path.Legible := by decide +kernel
  have hfound : ((configured calls).template.bind fun n => n.template.bind fun t =>
      (n.child? "c").map fun c => (t.own, c.own)) =
        some ({ equalCount := some false },
          { equalCount := some false, elementCount := some 3 }) := by
    decide +kernel
  obtain ⟨n, hn, hfound⟩ := Option.bind_eq_some_iff.1 hfound
  obtain ⟨t, ht, hfound⟩ := Option.bind_eq_some_iff.1 hfound
  obtain ⟨c, hc, hown⟩ := Option.map_eq_some_iff.1 hfound
  obtain ⟨htown, hcown⟩ := Prod.mk.inj hown
  have hholds : (configured calls).Holds n := .template hn (.self n)
  obtain ⟨hresolve, hcovers⟩ := resolve_eq_child hl hholds hc
  exact ⟨hl, n, t, c, hholds, ht, hc, htown, hcown, hresolve, hcovers t ht⟩

/-- Where an index has stopped a call, the template beside the child `a` has a template that the
child lacks, and resolving its name falls back on it. -/
theorem resolve_ne_child_stopped :
    let calls : List Call := [⟨.flag .anyOrder true, ⟨[.key "a"]⟩, .subtree⟩,
      ⟨.flag .anyOrder true, ⟨[.anyKey, .anyKey, .index (Nat.pow 10 longestNumeral)]⟩, .singleNode⟩]
    ∃ c, (configured calls).child? "a" = some c ∧ c.template.isNone ∧
      ((configured calls).resolve "a").template.isSome := by
  obtain ⟨i, hi, hlong⟩ := exists_hasLongNumeral
  rw [← hi]
  intro calls
  have htree : configured calls = _ :=
    configured_snoc_long_index hlong [⟨.flag .anyOrder true, ⟨[.key "a"]⟩, .subtree⟩]
      (.flag .anyOrder true) .singleNode
  have hfound : ((configured calls).child? "a").map (·.template.isNone) = some true := by
    rw [htree]
    decide +kernel
  obtain ⟨c, hc, hbare⟩ := Option.map_eq_some_iff.1 hfound
  refine ⟨c, hc, hbare, ?_⟩
  rw [htree]
  decide +kernel

end Node

end JsonExpect
