import JsonExpect.Proofs.Options.Navigation

/-!
# Coherent option trees

A template speaks for the children that are there as well: what is set at the template has been set
at each child, since a setting behind a wildcard goes to both and a new child starts as a copy. In a
`Coherent` tree this holds at every node, and falling back from a child to the template changes
nothing: `Coherent.resolve_eq` says that resolving a name is entering the child that a setting would
go to. Every change that treats nodes alike (`Uniform`) keeps a tree coherent wherever it is
applied.
-/

namespace JsonExpect

namespace Overrides

/-- What is set in `a` is set in `b`, perhaps to another value. -/
def Within (a b : Overrides) : Prop :=
  ∀ k, (a.setting? k).isSome → (b.setting? k).isSome

theorem Within.refl (a : Overrides) : a.Within a := fun _ h => h

theorem Within.trans {a b c : Overrides} (h : a.Within b) (h' : b.Within c) : a.Within c :=
  fun k hk => h' k (h k hk)

/-- What is set in both stays within when the same is set in both. -/
theorem Within.set {a b : Overrides} (h : a.Within b) (s : Setting) :
    (a.set s).Within (b.set s) := by
  intro k hk
  rw [setting?_set] at hk ⊢
  split
  · rfl
  · next hne => rw [if_neg hne] at hk; exact h k hk

theorem within_set (a : Overrides) (s : Setting) : a.Within (a.set s) := by
  intro k hk
  rw [setting?_set]
  split
  · rfl
  · exact hk

theorem empty_within (o : Overrides) : ({} : Overrides).Within o := by
  intro k hk
  cases k with
  | flag f => cases f <;> exact absurd hk (by simp [setting?, get])
  | elementCount => exact absurd hk (by simp [setting?])

theorem orElse_eq_left {α : Type} {a b : Option α} (h : b.isSome → a.isSome) : (a <|> b) = a := by
  cases a with
  | some _ => rfl
  | none =>
    cases b with
    | none => rfl
    | some _ => exact absurd (h rfl) (by simp)

/-- Nothing falls back where all that could has been set. -/
theorem orElse_eq_of_within {o fallback : Overrides} (h : fallback.Within o) :
    o.orElse fallback = o := by
  have hf : ∀ f, (o.get f <|> fallback.get f) = o.get f := by
    intro f
    have := h (.flag f)
    simp only [setting?, Option.isSome_map] at this
    exact orElse_eq_left this
  have he : (o.elementCount <|> fallback.elementCount) = o.elementCount := by
    have := h .elementCount
    simp only [setting?, Option.isSome_map] at this
    exact orElse_eq_left this
  cases o
  simp only [orElse, mk.injEq]
  exact ⟨hf .anyOrder, hf .exactMatch, hf .equalCount, hf .keyMustBeAbsent, hf .valueNotEqual, he⟩

end Overrides

namespace Node

/-- What is set at `t`, a template or the lack of one included, is set at `c` as well. -/
structure Covers (t c : Node) : Prop where
  own : t.own.Within c.own
  template : t.template.isSome → c.template.isSome

theorem Covers.trans {a b c : Node} (h : a.Covers b) (h' : b.Covers c) : a.Covers c :=
  ⟨h.own.trans h'.own, fun ha => h'.template (h.template ha)⟩

/-- At every node of the tree the template is covered by each child. -/
inductive Coherent : Node → Prop where
  | intro {n : Node} (children : ∀ d ∈ n.children, Coherent d.2)
      (template : ∀ t ∈ n.template, Coherent t)
      (covers : ∀ t ∈ n.template, ∀ d ∈ n.children, Covers t d.2) : Coherent n

section Coherent

variable {n : Node}

theorem Coherent.child (h : n.Coherent) {d : String × Node} (hd : d ∈ n.children) :
    d.2.Coherent := by
  obtain ⟨children, _, _⟩ := h; exact children d hd

theorem Coherent.template (h : n.Coherent) {t : Node} (ht : n.template = some t) : t.Coherent := by
  obtain ⟨_, template, _⟩ := h; exact template t ht

theorem Coherent.covers (h : n.Coherent) {t : Node} (ht : n.template = some t)
    {d : String × Node} (hd : d ∈ n.children) : t.Covers d.2 := by
  obtain ⟨_, _, covers⟩ := h; exact covers t ht d hd

/-- A node without children and template is coherent. -/
theorem coherent_of_bare (hc : n.children = []) (ht : n.template = none) : n.Coherent :=
  .intro (by simp [hc]) (by simp [ht]) (by simp [ht])

end Coherent

/-- The node under another name. -/
def named (name : Option String) (n : Node) : Node := { n with name }

theorem Coherent.named {n : Node} (h : n.Coherent) (name : Option String) :
    (n.named name).Coherent :=
  .intro (fun _ hd => h.child hd) (fun _ ht => h.template ht) (fun _ ht _ hd => h.covers ht hd)

/-- What a name finds is kept under this name. -/
theorem mem_children_of_child? {n : Node} {name : String} {c : Node} (h : n.child? name = some c) :
    (name, c) ∈ n.children := by
  obtain ⟨l₁, l₂, hl, _⟩ := List.lookup_eq_some_iff.1 h
  rw [hl]
  simp

theorem mem_of_child? {n : Node} {name : String} {c : Node} (h : n.child? name = some c) :
    ∃ d ∈ n.children, d.2 = c :=
  ⟨(name, c), mem_children_of_child? h, rfl⟩

/-- In a coherent tree nothing is read past a child. -/
theorem Coherent.resolve_eq {n : Node} (h : n.Coherent) (name : String) :
    n.resolve name = (n.childOrNew name).named (some name) := by
  unfold resolve childOrNew
  cases hc : n.child? name with
  | none => cases n.template <;> rfl
  | some c =>
    cases ht : n.template with
    | none => rfl
    | some t =>
      obtain ⟨d, hd, rfl⟩ := mem_of_child? hc
      have hcov := h.covers ht hd
      simp only [Overrides.orElse_eq_left hcov.template, Overrides.orElse_eq_of_within hcov.own]
      rfl

theorem Coherent.childOrNew {n : Node} (h : n.Coherent) (name : String) :
    (n.childOrNew name).Coherent := by
  unfold Node.childOrNew
  cases hc : n.child? name with
  | some c =>
    obtain ⟨d, hd, rfl⟩ := mem_of_child? hc
    cases n.template <;> exact h.child hd
  | none =>
    cases ht : n.template with
    | some t => exact (h.template ht).named (some name)
    | none => exact coherent_of_bare rfl rfl

theorem Coherent.resolve {n : Node} (h : n.Coherent) (name : String) :
    (n.resolve name).Coherent := by
  rw [h.resolve_eq]
  exact (h.childOrNew name).named _

/-- A template covers the child that a setting would go to. -/
theorem Coherent.covers_childOrNew {n : Node} (h : n.Coherent) {t : Node} (ht : n.template = some t)
    (name : String) : t.Covers (n.childOrNew name) := by
  unfold Node.childOrNew
  cases hc : n.child? name with
  | some c =>
    obtain ⟨d, hd, rfl⟩ := mem_of_child? hc
    exact h.covers ht hd
  | none => rw [ht]; exact ⟨.refl _, fun h => h⟩

/-! ## Changes that keep trees coherent -/

/-- A change of nodes that takes no notice of names, takes nothing back and treats a template and a
child alike. -/
structure Uniform (f : Node → Node) : Prop where
  named : ∀ (n : Node) (name : Option String), f (n.named name) = (f n).named name
  coherent : ∀ n : Node, n.Coherent → (f n).Coherent
  covers : ∀ t c : Node, t.Covers c → (f t).Covers (f c)
  grows : ∀ n : Node, n.Covers (f n)

theorem mem_putChild {name : String} {c : Node} {ds : List (String × Node)} {d : String × Node}
    (h : d ∈ putChild name c ds) : d = (name, c) ∨ d ∈ ds := by
  induction ds with
  | nil => exact .inl (List.mem_singleton.1 h)
  | cons e ds ih =>
    unfold putChild at h
    split at h
    · rcases List.mem_cons.1 h with h | h
      · exact .inl h
      · exact .inr (List.mem_cons_of_mem _ h)
    · rcases List.mem_cons.1 h with h | h
      · exact .inr (h ▸ List.mem_cons_self)
      · exact (ih h).imp id (List.mem_cons_of_mem _)

section Update

variable {f : Node → Node}

theorem update_named (hf : Uniform f) (cs : List Component) (n : Node) (name : Option String) :
    update f cs (n.named name) = (update f cs n).named name := by
  cases cs with
  | nil => exact hf.named n name
  | cons c cs => unfold update; split <;> rfl

/-- A change below a node leaves its own values and its template where they are. -/
theorem covers_update (hf : Uniform f) (cs : List Component) (n : Node) :
    n.Covers (update f cs n) := by
  cases cs with
  | nil => exact hf.grows n
  | cons c cs =>
    unfold update
    split
    · exact ⟨.refl _, fun _ => rfl⟩
    · exact ⟨.refl _, fun h => h⟩

theorem Covers.update (hf : Uniform f) (cs : List Component) {t c : Node} (h : t.Covers c) :
    (update f cs t).Covers (update f cs c) := by
  cases cs with
  | nil => exact hf.covers t c h
  | cons c cs =>
    unfold Node.update
    split
    · exact ⟨h.own, fun _ => rfl⟩
    · exact ⟨h.own, h.template⟩

/-- A node that nothing has been set at covers nothing but what everything has. -/
theorem fresh_covers (name : Option String) (b : Bundle) (n : Node) : (fresh name b).Covers n :=
  ⟨n.own.empty_within, fun h => absurd h (by simp [fresh])⟩

/-- Wherever a uniform change is applied, the tree stays coherent. -/
theorem Coherent.update (hf : Uniform f) (cs : List Component) {n : Node} (h : n.Coherent) :
    (update f cs n).Coherent := by
  induction cs generalizing n with
  | nil => exact hf.coherent n h
  | cons c cs ih =>
    unfold Node.update
    split
    · have hbase : (n.template.getD (fresh (some c.label) n.defaults)).Coherent := by
        cases ht : n.template with
        | none => exact coherent_of_bare rfl rfl
        | some t => exact h.template ht
      have hcov : ∀ d ∈ n.children,
          (n.template.getD (fresh (some c.label) n.defaults)).Covers d.2 := by
        intro d hd
        cases ht : n.template with
        | none => exact fresh_covers _ _ _
        | some t => exact h.covers ht hd
      refine .intro (fun d hd => ?_) (fun t ht => ?_) (fun t ht d hd => ?_)
      · obtain ⟨e, he, rfl⟩ := List.mem_map.1 hd
        exact ih (h.child he)
      · cases ht; exact ih hbase
      · cases ht
        obtain ⟨e, he, rfl⟩ := List.mem_map.1 hd
        exact (hcov e he).update hf cs
    · refine .intro (fun d hd => ?_) (fun t ht => h.template ht) (fun t ht d hd => ?_)
      · rcases mem_putChild hd with rfl | hd
        · exact ih (h.childOrNew _)
        · exact h.child hd
      · rcases mem_putChild hd with rfl | hd
        · exact (h.covers_childOrNew ht _).trans (covers_update hf cs _)
        · exact h.covers ht hd

end Update

/-! ## Settings -/

theorem fillChildren_eq_map (b : Bundle) (cs : List (String × Node)) :
    fillChildren b cs = cs.map fun d => (d.1, fill b d.2) := by
  induction cs with
  | nil => rfl
  | cons d cs ih => simp only [fillChildren, ih, List.map_cons]

theorem fill_eq (b : Bundle) (n : Node) :
    n.fill b =
      ⟨n.name, b, n.own, n.children.map fun d => (d.1, d.2.fill b), n.template.map (fill b)⟩ := by
  obtain ⟨name, defaults, own, children, template⟩ := n
  simp only [fill, fillChildren_eq_map, mk.injEq, true_and]
  cases template <;> rfl

theorem Covers.fill {t c : Node} (h : t.Covers c) (b b' : Bundle) :
    (t.fill b).Covers (c.fill b') := by
  rw [fill_eq, fill_eq]
  exact ⟨h.own, by simpa using h.template⟩

theorem covers_fill (n : Node) (b : Bundle) : n.Covers (n.fill b) := by
  rw [fill_eq]
  exact ⟨.refl _, by simp⟩

theorem Coherent.fill {n : Node} (h : n.Coherent) (b : Bundle) : (n.fill b).Coherent := by
  induction h with
  | intro _ _ covers ihc iht =>
    rw [fill_eq]
    refine .intro (fun d hd => ?_) (fun t ht => ?_) (fun t ht d hd => ?_)
    · obtain ⟨e, he, rfl⟩ := List.mem_map.1 hd
      exact ihc e he
    · obtain ⟨u, hu, rfl⟩ := Option.map_eq_some_iff.1 ht
      exact iht u hu
    · obtain ⟨u, hu, rfl⟩ := Option.map_eq_some_iff.1 ht
      obtain ⟨e, he, rfl⟩ := List.mem_map.1 hd
      exact (covers u hu e he).fill b b

/-- The node with a value of its own. -/
def overridden (s : Setting) (n : Node) : Node := { n with own := n.own.set s }

theorem uniform_overridden (s : Setting) : Uniform (overridden s) where
  named _ _ := rfl
  coherent _ h := .intro (fun _ hd => h.child hd) (fun _ ht => h.template ht)
    (fun _ ht _ hd => h.covers ht hd)
  covers _ _ h := ⟨h.own.set s, h.template⟩
  grows n := ⟨n.own.within_set s, fun h => h⟩

/-- The node with a flag changed in its bundle and in all that lies below. -/
def refilled (f : Flag) (on : Bool) (n : Node) : Node := n.fill (n.defaults.put (some on) f)

theorem uniform_refilled (f : Flag) (on : Bool) : Uniform (refilled f on) where
  named n name := by unfold refilled; rw [fill_eq, fill_eq]; rfl
  coherent _ h := h.fill _
  covers _ _ h := h.fill _ _
  grows n := n.covers_fill _

/-- A setting either becomes a value of the node itself or, for a flag over a subtree, refills. -/
theorem apply_eq (s : Setting) (scope : Scope) :
    apply s scope = overridden s ∧ (scope = .singleNode ∨ s.kind = .elementCount) ∨
      ∃ f on, s = .flag f on ∧ scope = .subtree ∧ apply s scope = refilled f on := by
  cases s with
  | flag f on =>
    cases scope with
    | singleNode => exact .inl ⟨rfl, .inl rfl⟩
    | subtree => exact .inr ⟨f, on, rfl, rfl, rfl⟩
  | elementCount n => exact .inl ⟨by cases scope <;> rfl, .inr rfl⟩

theorem uniform_apply (s : Setting) (scope : Scope) : Uniform (apply s scope) := by
  obtain ⟨h, _⟩ | ⟨f, on, _, _, h⟩ := apply_eq s scope
  · rw [h]; exact uniform_overridden s
  · rw [h]; exact uniform_refilled f on

end Node

end JsonExpect
