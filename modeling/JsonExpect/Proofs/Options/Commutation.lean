import JsonExpect.Proofs.Options.Log

/-!
# Calls that commute

Two trees are `Alike` when they differ at most in the order of children and in the names of
templates, at every depth. Neither shows in what a tree says of a location (`Alike.resolveAll`).

A call that gives values of its own to nodes changes nothing else in those that are there, and a
child that it makes is a copy of what stands for it. So two such calls commute up to likeness unless
they set an option of one node to two values (`Node.configured_comm`). The induction is on the two
paths at once: behind a wildcard and a name, the child of the name is changed by both calls, whether
it has been there, is copied from the template, or is made by one of them.
-/

namespace JsonExpect

namespace Component

/-- Whether components lead along some names together: as many of the one as of the other, and
unless one is a wildcard the same node at each step. -/
def meet : List Component → List Component → Bool
  | [], [] => true
  | c :: cs, d :: ds => (c.isWildcard || d.isWildcard || c.label == d.label) && meet cs ds
  | _, _ => false

theorem exists_fits_iff (c d : Component) :
    (∃ name, c.fits name = true ∧ d.fits name = true) ↔
      (c.isWildcard || d.isWildcard || c.label == d.label) = true := by
  unfold fits
  cases c.isWildcard with
  | true => exact iff_of_true ⟨d.label, rfl, by simp⟩ rfl
  | false =>
    cases d.isWildcard with
    | true => exact iff_of_true ⟨c.label, by simp, rfl⟩ rfl
    | false =>
      simp only [Bool.false_or, beq_iff_eq]
      exact ⟨fun ⟨_, hc, hd⟩ => hc.trans hd.symm, fun h => ⟨d.label, h, rfl⟩⟩

theorem meet_iff {cs ds : List Component} :
    meet cs ds = true ↔ ∃ names, fitAll cs names = true ∧ fitAll ds names = true := by
  induction cs generalizing ds with
  | nil =>
    cases ds with
    | nil => exact ⟨fun _ => ⟨[], rfl, rfl⟩, fun _ => rfl⟩
    | cons d ds =>
      refine ⟨nofun, ?_⟩
      rintro ⟨_ | _, h, h'⟩
      · cases h'
      · cases h
  | cons c cs ih =>
    cases ds with
    | nil =>
      refine ⟨nofun, ?_⟩
      rintro ⟨_ | _, h, h'⟩
      · cases h
      · cases h'
    | cons d ds =>
      rw [meet, Bool.and_eq_true, ih, ← exists_fits_iff]
      constructor
      · rintro ⟨⟨name, hc, hd⟩, names, hcs, hds⟩
        exact ⟨name :: names, by rw [fitAll, hc, hcs]; rfl, by rw [fitAll, hd, hds]; rfl⟩
      · rintro ⟨_ | ⟨name, names⟩, h, h'⟩
        · cases h
        · simp only [fitAll, Bool.and_eq_true] at h h'
          exact ⟨⟨name, h.1, h'.1⟩, names, h.2, h'.2⟩

end Component

namespace Overrides

/-- Overrides are what they set of each option. -/
theorem ext_setting? {o o' : Overrides} (h : ∀ k, o.setting? k = o'.setting? k) : o = o' := by
  have hflag : ∀ f, o.get f = o'.get f := fun f =>
    Option.map_injective (fun _ _ heq => (Setting.flag.inj heq).2) (h (.flag f))
  have hcount : o.elementCount = o'.elementCount :=
    Option.map_injective (fun _ _ heq => Setting.elementCount.inj heq) (h .elementCount)
  cases o
  cases o'
  simp only [mk.injEq]
  exact ⟨hflag .anyOrder, hflag .exactMatch, hflag .equalCount, hflag .keyMustBeAbsent,
    hflag .valueNotEqual, hcount⟩

/-- Two settings commute unless they are of one option and differ. -/
theorem set_comm (o : Overrides) {s t : Setting} (h : s.kind ≠ t.kind ∨ s = t) :
    (o.set s).set t = (o.set t).set s := by
  obtain h | rfl := h
  · refine ext_setting? fun k => ?_
    simp only [setting?_set]
    by_cases hs : k = s.kind
    · subst hs
      rw [if_neg h, if_pos rfl, if_pos rfl]
    · rw [if_neg hs, if_neg hs]
  · rfl

end Overrides

namespace Node

mutual

/-- Trees that differ at most in the order of children and in the names of templates. -/
inductive Alike : Node → Node → Prop where
  | node {name : Option String} {defaults : Bundle} {own : Overrides}
      {cs ds : List (String × Node)} {t u : Option Node} (children : AlikeChildren cs ds)
      (template : AlikeTemplate t u) :
      Alike ⟨name, defaults, own, cs, t⟩ ⟨name, defaults, own, ds, u⟩

/-- The same of children: alike in turn under the same names, or reordered. -/
inductive AlikeChildren : List (String × Node) → List (String × Node) → Prop where
  | nil : AlikeChildren [] []
  | cons (name : String) {c d : Node} {cs ds : List (String × Node)} (child : Alike c d)
      (rest : AlikeChildren cs ds) : AlikeChildren ((name, c) :: cs) ((name, d) :: ds)
  | swap {c d : String × Node} (names : c.1 ≠ d.1) (rest : List (String × Node)) :
      AlikeChildren (c :: d :: rest) (d :: c :: rest)
  | trans {cs ds es : List (String × Node)} (first : AlikeChildren cs ds)
      (second : AlikeChildren ds es) : AlikeChildren cs es

/-- The same of templates, whatever they are named. -/
inductive AlikeTemplate : Option Node → Option Node → Prop where
  | none : AlikeTemplate .none .none
  | some {t u : Node} (unnamed : Alike (t.named .none) (u.named .none)) :
      AlikeTemplate (.some t) (.some u)

end

mutual

theorem Alike.refl : ∀ n : Node, Alike n n
  | ⟨_, _, _, children, template⟩ => .node (.refl children) (.refl template)

theorem AlikeChildren.refl : ∀ cs : List (String × Node), AlikeChildren cs cs
  | [] => .nil
  | (name, c) :: cs => .cons name (.refl c) (.refl cs)

theorem AlikeTemplate.refl : ∀ t : Option Node, AlikeTemplate t t
  | .none => .none
  | .some ⟨_, _, _, children, template⟩ => .some (.node (.refl children) (.refl template))

end

mutual

theorem Alike.symm : ∀ {m n : Node}, Alike m n → Alike n m
  | _, _, .node children template => .node children.symm template.symm

theorem AlikeChildren.symm : ∀ {cs ds : List (String × Node)},
    AlikeChildren cs ds → AlikeChildren ds cs
  | _, _, .nil => .nil
  | _, _, .cons name child rest => .cons name child.symm rest.symm
  | _, _, .swap names rest => .swap names.symm rest
  | _, _, .trans first second => second.symm.trans first.symm

theorem AlikeTemplate.symm : ∀ {t u : Option Node}, AlikeTemplate t u → AlikeTemplate u t
  | _, _, .none => .none
  | _, _, .some unnamed => .some unnamed.symm

end

mutual

theorem Alike.trans : ∀ {m n o : Node}, Alike m n → Alike n o → Alike m o
  | _, _, _, .node children template, .node children' template' =>
    .node (children.trans children') (template.trans template')

theorem AlikeTemplate.trans : ∀ {t u v : Option Node},
    AlikeTemplate t u → AlikeTemplate u v → AlikeTemplate t v
  | _, _, _, .none, .none => .none
  | _, _, _, .some unnamed, .some unnamed' => .some (unnamed.trans unnamed')

end

/-! ## What alike trees say -/

theorem optionRel_alike_refl : ∀ o : Option Node, Option.Rel Alike o o
  | .none => .none
  | .some n => .some (.refl n)

theorem optionRel_alike_trans : ∀ {o p q : Option Node},
    Option.Rel Alike o p → Option.Rel Alike p q → Option.Rel Alike o q
  | _, _, _, .none, .none => .none
  | _, _, _, .some h, .some h' => .some (h.trans h')

theorem AlikeChildren.lookup (name : String) : ∀ {cs ds : List (String × Node)},
    AlikeChildren cs ds → Option.Rel Alike (cs.lookup name) (ds.lookup name)
  | _, _, .nil => .none
  | _, _, .cons key child rest => by
    simp only [List.lookup_cons]
    cases name == key with
    | true => exact .some child
    | false => exact rest.lookup name
  | _, _, .swap (c := (key, c)) (d := (key', d)) names rest => by
    simp only [List.lookup_cons]
    cases h : name == key with
    | false => exact optionRel_alike_refl _
    | true =>
      have hname : (name == key') = false := by
        rw [beq_iff_eq.1 h]
        exact beq_false_of_ne names
      rw [hname]
      exact optionRel_alike_refl _
  | _, _, .trans first second =>
    optionRel_alike_trans (first.lookup name) (second.lookup name)

theorem AlikeTemplate.orElse {t u t' u' : Option Node} (h : AlikeTemplate t u)
    (h' : AlikeTemplate t' u') : AlikeTemplate (t <|> t') (u <|> u') := by
  cases h with
  | none => exact h'
  | some unnamed => exact .some unnamed

theorem alike_iff {m n : Node} :
    Alike m n ↔ m.name = n.name ∧ m.defaults = n.defaults ∧ m.own = n.own ∧
      AlikeChildren m.children n.children ∧ AlikeTemplate m.template n.template := by
  constructor
  · rintro ⟨children, template⟩
    exact ⟨rfl, rfl, rfl, children, template⟩
  · obtain ⟨_, _, _, _, _⟩ := m
    obtain ⟨_, _, _, _, _⟩ := n
    rintro ⟨rfl, rfl, rfl, children, template⟩
    exact .node children template

/-- Children of a name in alike trees both have a template or both have none. -/
theorem Alike.isSome_template_child? {m n : Node} (h : Alike m n) (name : String) :
    (m.child? name).map (·.template.isSome) = (n.child? name).map (·.template.isSome) := by
  have hchild : Option.Rel Alike (m.child? name) (n.child? name) :=
    (alike_iff.1 h).2.2.2.1.lookup name
  generalize m.child? name = c at hchild ⊢
  generalize n.child? name = d at hchild ⊢
  cases hchild with
  | none => rfl
  | some hcd =>
    obtain ⟨-, template⟩ := hcd
    cases template <;> rfl

/-- Alike trees lead to alike configurations by every name. -/
theorem Alike.resolve {m n : Node} (h : Alike m n) (name : String) :
    Alike (m.resolve name) (n.resolve name) := by
  obtain ⟨-, hdefaults, -, children, template⟩ := alike_iff.1 h
  have hchild := children.lookup name
  unfold Node.resolve child?
  generalize m.children.lookup name = c at hchild ⊢
  generalize n.children.lookup name = d at hchild ⊢
  generalize m.template = t at template ⊢
  generalize n.template = u at template ⊢
  cases hchild with
  | none =>
    cases template with
    | none => exact alike_iff.2 ⟨rfl, hdefaults, rfl, .nil, .none⟩
    | some unnamed =>
      obtain ⟨-, hd, ho, hc, ht⟩ := alike_iff.1 unnamed
      exact alike_iff.2 ⟨rfl, hd, ho, hc, ht⟩
  | some hcd =>
    obtain ⟨-, hd, ho, hc, ht⟩ := alike_iff.1 hcd
    cases template with
    | none => exact alike_iff.2 ⟨rfl, hd, ho, hc, ht⟩
    | some unnamed =>
      obtain ⟨-, -, ho', -, ht'⟩ := alike_iff.1 unnamed
      exact alike_iff.2 ⟨rfl, hd, congrArg₂ Overrides.orElse ho ho', hc, ht.orElse ht'⟩

/-- Alike trees say the same of every location. -/
theorem Alike.resolveAll {m n : Node} (h : Alike m n) (names : List String) :
    Alike (m.resolveAll names) (n.resolveAll names) := by
  induction names generalizing m n with
  | nil => exact h
  | cons name names ih => exact ih (h.resolve name)

/-! ## What keeps children alike -/

/-- Children that are changed in the same places by changes that come to the same. -/
theorem AlikeChildren.map {g h : Node → Node} (hgh : ∀ n, Alike (g n) (h n)) :
    ∀ cs : List (String × Node),
      AlikeChildren (cs.map fun d => (d.1, g d.2)) (cs.map fun d => (d.1, h d.2))
  | [] => .nil
  | (name, c) :: cs => .cons name (hgh c) (.map hgh cs)

theorem AlikeChildren.putChild (name : String) {c d : Node} (h : Alike c d) :
    ∀ cs : List (String × Node), AlikeChildren (putChild name c cs) (putChild name d cs)
  | [] => .cons name h .nil
  | (key, e) :: cs => by
    unfold Node.putChild
    split
    · exact .cons name h (.refl cs)
    · exact .cons key (.refl e) (.putChild name h cs)

/-- Two children may be put in either order. -/
theorem alikeChildren_putChild_putChild {name name' : String} (hne : name ≠ name') (c d : Node)
    (cs : List (String × Node)) :
    AlikeChildren (putChild name c (putChild name' d cs))
      (putChild name' d (putChild name c cs)) := by
  induction cs with
  | nil =>
    simp only [putChild, if_neg hne, if_neg hne.symm]
    exact .swap hne.symm []
  | cons e cs ih =>
    obtain ⟨key, e⟩ := e
    by_cases h : key = name
    · subst h
      simp only [putChild, if_neg hne, if_true]
      exact .refl _
    · by_cases h' : key = name'
      · subst h'
        simp only [putChild, if_neg hne.symm, if_true]
        exact .refl _
      · simp only [putChild, if_neg h, if_neg h']
        exact .cons key (.refl e) ih

theorem putChild_putChild (name : String) (c d : Node) (cs : List (String × Node)) :
    putChild name c (putChild name d cs) = putChild name c cs := by
  induction cs with
  | nil => simp only [putChild, if_true]
  | cons e cs ih =>
    by_cases h : e.1 = name
    · simp only [putChild, if_pos h, if_true]
    · simp only [putChild, if_neg h, ih]

theorem map_putChild (name : String) (c : Node) (g : Node → Node) (cs : List (String × Node)) :
    (putChild name c cs).map (fun d => (d.1, g d.2)) =
      putChild name (g c) (cs.map fun d => (d.1, g d.2)) := by
  induction cs with
  | nil => rfl
  | cons e cs ih =>
    by_cases h : e.1 = name
    · simp only [putChild, if_pos h, List.map_cons]
    · simp only [putChild, if_neg h, List.map_cons, ih]

/-! ## Changes behind two components -/

section Update

variable {f g : Node → Node} {c d : Component} {cs ds : List Component}

/-- Changes below that come to the same in either order. -/
def Commutes (f g : Node → Node) (cs ds : List Component) : Prop :=
  ∀ n : Node, Alike (update f cs (update g ds n)) (update g ds (update f cs n))

theorem Commutes.symm (h : Commutes f g cs ds) : Commutes g f ds cs := fun n => (h n).symm

/-- Both wildcards change the template and all children. The template may be made by either, and
takes its name from the one that comes first. -/
theorem Commutes.wildcards (hf : Uniform f) (hg : Uniform g) (hc : c.isWildcard = true)
    (hd : d.isWildcard = true) (h : Commutes f g cs ds) : Commutes f g (c :: cs) (d :: ds) := by
  intro n
  have htemplate : ∀ t u : Node, t.named none = u.named none →
      Alike ((update f cs (update g ds t)).named none)
        ((update g ds (update f cs u)).named none) := by
    intro t u htu
    rw [← update_named hf, ← update_named hg, ← update_named hg, ← update_named hf, htu]
    exact h _
  have hnames : (n.template.getD (fresh (some d.label) n.defaults)).named none =
      (n.template.getD (fresh (some c.label) n.defaults)).named none := by
    cases n.template <;> rfl
  simp only [update, if_pos hc, if_pos hd, List.map_map]
  exact .node (.map (g := update f cs ∘ update g ds) (h := update g ds ∘ update f cs) h n.children)
    (.some (htemplate _ _ hnames))

/-- A wildcard changes the child of a name as well: the one that is there, or the copy of the
template that is made before or after the template changes. -/
theorem Commutes.wildcard_name (hf : Uniform f) (hc : c.isWildcard = true)
    (hd : d.isWildcard = false) (h : Commutes f g cs ds) : Commutes f g (c :: cs) (d :: ds) := by
  intro n
  have hname : ∀ m : Node, update g (d :: ds) m = { m with
      children := putChild d.label (update g ds (m.childOrNew d.label)) m.children } :=
    fun m => by rw [update, if_neg (by simp [hd])]
  rw [hname (update f (c :: cs) n), childOrNew_of_wildcard hf hc, hname n]
  simp only [update, if_pos hc, map_putChild]
  exact .node (.putChild _ (h _) _) (.refl _)

/-- Behind two names the calls meet only if the names are the same; new children may come in either
order. -/
theorem Commutes.names (hc : c.isWildcard = false) (hd : d.isWildcard = false)
    (h : c.label = d.label → Commutes f g cs ds) : Commutes f g (c :: cs) (d :: ds) := by
  intro n
  have hfirst : ∀ m : Node, update f (c :: cs) m = { m with
      children := putChild c.label (update f cs (m.childOrNew c.label)) m.children } :=
    fun m => by rw [update, if_neg (by simp [hc])]
  have hsecond : ∀ m : Node, update g (d :: ds) m = { m with
      children := putChild d.label (update g ds (m.childOrNew d.label)) m.children } :=
    fun m => by rw [update, if_neg (by simp [hd])]
  rw [hfirst (update g (d :: ds) n), hsecond (update f (c :: cs) n), childOrNew_of_name hc,
    childOrNew_of_name hd, hfirst n, hsecond n]
  by_cases hname : c.label = d.label
  · simp only [if_pos hname, if_pos hname.symm]
    rw [hname, putChild_putChild, putChild_putChild]
    exact .node (.putChild _ (h hname _) _) (.refl _)
  · simp only [if_neg hname, if_neg (Ne.symm hname)]
    exact .node (alikeChildren_putChild_putChild hname _ _ _) (.refl _)

/-- A value of the node itself commutes with all that happens below it. -/
theorem update_overridden_comm (s : Setting) (n : Node) :
    update g (d :: ds) (overridden s n) = overridden s (update g (d :: ds) n) := by
  unfold update
  split <;> rfl

end Update

/-- Settings that give nodes values of their own commute, unless they are of one option, differ and
lead to one node. -/
theorem commutes_overridden {s t : Setting} {cs ds : List Component}
    (h : s.kind ≠ t.kind ∨ s = t ∨ Component.meet cs ds = false) :
    Commutes (overridden s) (overridden t) cs ds := by
  induction cs generalizing ds with
  | nil =>
    cases ds with
    | nil =>
      intro n
      have hst : s.kind ≠ t.kind ∨ s = t := h.imp_right (·.resolve_right (by simp [Component.meet]))
      have hown : overridden s (overridden t n) = overridden t (overridden s n) := by
        unfold overridden
        rw [n.own.set_comm hst]
      rw [update, update, update, update, hown]
      exact .refl _
    | cons d ds =>
      intro n
      rw [update, update, update_overridden_comm]
      exact .refl _
  | cons c cs ih =>
    cases ds with
    | nil =>
      intro n
      rw [update, update, update_overridden_comm]
      exact .refl _
    | cons d ds =>
      have hf := uniform_overridden s
      have hg := uniform_overridden t
      have hbelow : (c.isWildcard || d.isWildcard || c.label == d.label) = true →
          Commutes (overridden s) (overridden t) cs ds := by
        intro hcd
        rw [Component.meet, hcd, Bool.true_and] at h
        exact ih h
      cases hc : c.isWildcard with
      | true =>
        have hcs := hbelow (by rw [hc]; rfl)
        cases hd : d.isWildcard with
        | true => exact hcs.wildcards hf hg hc hd
        | false => exact hcs.wildcard_name hf hc hd
      | false =>
        cases hd : d.isWildcard with
        | true =>
          have hcs := hbelow (by rw [hd, Bool.or_true]; rfl)
          exact (hcs.symm.wildcard_name hg hd hc).symm
        | false =>
          refine .names hc hd fun hname => hbelow ?_
          rw [hc, hd]
          exact beq_iff_eq.2 hname

/-- **Independent calls commute.** Of two calls that give nodes values of their own, and that set
different options, or the same option to the same value, or whose paths never lead along the same
names, it does not matter which one comes first: the trees are alike. No index may stop a call. -/
theorem configured_comm {calls : List Call} {a b : Call}
    (hl : ∀ c ∈ calls ++ [a, b], c.path.Legible)
    (ha : a.scope = .singleNode ∨ a.setting.kind = .elementCount)
    (hb : b.scope = .singleNode ∨ b.setting.kind = .elementCount)
    (h : a.setting.kind ≠ b.setting.kind ∨ a.setting = b.setting ∨
      ¬ ∃ names, Component.fitAll a.path.components names = true ∧
        Component.fitAll b.path.components names = true) :
    Alike (configured (calls ++ [a, b])) (configured (calls ++ [b, a])) := by
  have hown : ∀ c : Call, c.scope = .singleNode ∨ c.setting.kind = .elementCount →
      apply c.setting c.scope = overridden c.setting := by
    intro c hc
    obtain ⟨happly, -⟩ | ⟨f, on, hf, hs, -⟩ := apply_eq c.setting c.scope
    · exact happly
    · rw [hf, hs] at hc
      rcases hc with hc | hc <;> cases hc
  have hpaths : b.setting.kind ≠ a.setting.kind ∨ b.setting = a.setting ∨
      Component.meet b.path.components a.path.components = false := by
    refine h.imp Ne.symm (Or.imp Eq.symm fun hapart => Bool.eq_false_iff.2 fun hmeet => hapart ?_)
    obtain ⟨names, hb', ha'⟩ := Component.meet_iff.1 hmeet
    exact ⟨names, ha', hb'⟩
  have htree : ∀ c d : Call, c.path.Legible → d.path.Legible → configured (calls ++ [c, d]) =
      update (apply d.setting d.scope) d.path.components
        (update (apply c.setting c.scope) c.path.components (configured calls)) := by
    intro c d hc hd
    rw [List.append_cons, configured_snoc, configured_snoc, Call.after_of_legible hd,
      Call.after_of_legible hc]
  have hla : a.path.Legible := hl a (by simp)
  have hlb : b.path.Legible := hl b (by simp)
  rw [htree a b hla hlb, htree b a hlb hla, hown a ha, hown b hb]
  exact commutes_overridden hpaths (configured calls)

/-- A call behind a wildcard and one behind a name, in a tree whose bundles differ: the child `b` is
made by the one or copied for the other, and the child `z` of the template as well. -/
theorem configured_comm_wildcard :
    let before : List Call := [⟨.flag .exactMatch false, ⟨[.key "a"]⟩, .subtree⟩,
      ⟨.flag .equalCount true, ⟨[.anyKey, .key "y"]⟩, .subtree⟩]
    let a : Call := ⟨.flag .anyOrder true, ⟨[.anyKey, .key "z"]⟩, .singleNode⟩
    let b : Call := ⟨.elementCount 2, ⟨[.key "b", .anyIndex]⟩, .subtree⟩
    (∀ c ∈ before ++ [a, b], c.path.Legible) ∧
      (a.scope = .singleNode ∨ a.setting.kind = .elementCount) ∧
      (b.scope = .singleNode ∨ b.setting.kind = .elementCount) ∧
      a.setting.kind ≠ b.setting.kind ∧
      Component.fitAll a.path.components ["b", "z"] = true ∧
      Component.fitAll b.path.components ["b", "z"] = true ∧
      Alike (configured (before ++ [a, b])) (configured (before ++ [b, a])) := by
  intro before a b
  have hl : ∀ c ∈ before ++ [a, b], c.path.Legible := by decide +kernel
  have ha : a.scope = .singleNode ∨ a.setting.kind = .elementCount := .inl rfl
  have hb : b.scope = .singleNode ∨ b.setting.kind = .elementCount := .inr rfl
  have hkind : a.setting.kind ≠ b.setting.kind := by decide
  exact ⟨hl, ha, hb, hkind, rfl, by decide +kernel, configured_comm hl ha hb (.inl hkind)⟩

/-- A call that an index stops makes a template for the templates below the root. The child `a`
starts as a copy of the root's template if it is made afterwards, and has no template if before. -/
theorem configured_not_comm_stopped :
    let a : Call :=
      ⟨.flag .anyOrder true, ⟨[.anyKey, .anyKey, .index (Nat.pow 10 longestNumeral)]⟩, .singleNode⟩
    let b : Call := ⟨.flag .equalCount true, ⟨[.key "a"]⟩, .singleNode⟩
    a.scope = .singleNode ∧ b.scope = .singleNode ∧ a.setting.kind ≠ b.setting.kind ∧
      ¬ Alike (configured [a, b]) (configured [b, a]) := by
  obtain ⟨i, hi, hlong⟩ := exists_hasLongNumeral
  rw [← hi]
  intro a b
  refine ⟨rfl, rfl, nofun, fun halike => ?_⟩
  have hfirst : configured [a, b] = _ := (configured_snoc [a] b).trans
    (congrArg b.after (configured_snoc_long_index hlong [] (.flag .anyOrder true) .singleNode))
  have hlast : configured [b, a] = _ :=
    configured_snoc_long_index hlong [b] (.flag .anyOrder true) .singleNode
  have htemplates := halike.isSome_template_child? "a"
  rw [hfirst, hlast] at htemplates
  revert htemplates
  decide +kernel

end Node

end JsonExpect
