import Mathlib.Data.Nat.Digits.Defs
import JsonExpect.Options.Node

/-!
# Following paths through option trees

A path is followed to its end if no index in it has too many digits. Then `Node.navigate` comes to
`Node.update`, in which nothing can fail (`Node.navigate_of_legible`). A path with a longer index
stops at this index before anything is changed at its end: what is left is the tree with some more
nodes in it, `Node.halted`, whatever was to be done (`Node.navigate_of_not_legible`).
-/

namespace JsonExpect

theorem hasLongNumeral_natCast (i : Nat) :
    hasLongNumeral i = false ↔ (Nat.toDigits 10 i).length ≤ longestNumeral := by
  have hdigits : ∀ {k : Nat}, 0 < k → (i < Nat.pow 10 k ↔ (Nat.toDigits 10 i).length ≤ k) :=
    fun hk => (Nat.length_toDigits_le_iff (by decide) hk).symm
  rw [hasLongNumeral, decide_eq_false_iff_not, Nat.not_le, Int.natAbs_natCast]
  exact hdigits (by decide)

/-! ## Actions that fail where they stand -/

section Actions

variable {σ τ ε α β : Type} {s s' : σ} {t : τ} {a : α} {e : ε}

theorem bind_of_ok {x : EStateM ε σ α} (h : x s = .ok a s') (f : α → EStateM ε σ β) :
    (x >>= f) s = f a s' := by
  change EStateM.bind x f s = _
  rw [EStateM.bind, h]

theorem bind_of_error {x : EStateM ε σ α} (h : x s = .error e s') (f : α → EStateM ε σ β) :
    (x >>= f) s = .error e s' := by
  change EStateM.bind x f s = _
  rw [EStateM.bind, h]

theorem onPart_of_ok {part : σ → τ} {put : σ → τ → σ} {act : EStateM ε τ α}
    (h : act (part s) = .ok a t) : onPart part put act s = .ok a (put s t) := by
  rw [onPart, h]

theorem onPart_of_error {part : σ → τ} {put : σ → τ → σ} {act : EStateM ε τ α}
    (h : act (part s) = .error e t) : onPart part put act s = .error e (put s t) := by
  rw [onPart, h]

end Actions

/-! ## Names of nodes -/

namespace Component

/-- The name of the node that the component leads to, were there no limit on numerals. -/
def label : Component → String
  | .key name => name
  | .index position => toString position
  | .anyKey => "*"
  | .anyIndex => "[*]"

theorem nodeName?_of_legible {c : Component} (h : c.Legible) : c.nodeName? = some c.label := by
  cases c with
  | index i =>
    rw [nodeName?, (hasLongNumeral_natCast i).2 h]
    rfl
  | key _ | anyKey | anyIndex => rfl

theorem nodeName?_of_not_legible {c : Component} (h : ¬ c.Legible) : c.nodeName? = none := by
  cases c with
  | index i =>
    have hlong : hasLongNumeral i = true :=
      Bool.eq_true_of_not_eq_false fun hshort => h ((hasLongNumeral_natCast i).1 hshort)
    rw [nodeName?, if_pos hlong]
  | key _ | anyKey | anyIndex => exact absurd trivial h

theorem not_legible_of_hasLongNumeral {i : Nat} (h : hasLongNumeral i = true) :
    ¬ (index i).Legible := fun hl => by
  rw [(hasLongNumeral_natCast i).2 hl] at h
  cases h

theorem legible_of_isWildcard {c : Component} (h : c.isWildcard = true) : c.Legible := by
  cases c with
  | index _ | key _ => cases h
  | anyKey | anyIndex => trivial

end Component

/-! ## The end of a path -/

namespace Node

variable {f : Node → Node} {cs : List Component}

/-- The node changed by `f` at every location that the components lead to. -/
def update (f : Node → Node) : List Component → Node → Node
  | [], n => f n
  | c :: cs, n =>
    if c.isWildcard then
      { n with
        template := some (update f cs (n.template.getD (fresh (some c.label) n.defaults)))
        children := n.children.map fun d => (d.1, update f cs d.2) }
    else
      { n with children := putChild c.label (update f cs (n.childOrNew c.label)) n.children }

theorem eachChild_of_ok {act : EStateM PathError Node Unit} {g : Node → Node}
    (h : ∀ n, act n = .ok () (g n)) (ds : List (String × Node)) :
    eachChild act ds = .ok () (ds.map fun d => (d.1, g d.2)) := by
  induction ds with
  | nil => rfl
  | cons d ds ih => simp only [eachChild, h, ih, List.map_cons]

/-- A path of short enough indices is followed to its end, at whatever node it starts. -/
theorem navigate_of_legible (f : Node → Node) (h : ∀ c ∈ cs, c.Legible) (n : Node) :
    navigate f cs n = .ok () (update f cs n) := by
  induction cs generalizing n with
  | nil => rfl
  | cons c cs ih =>
    obtain ⟨hc, hcs⟩ := List.forall_mem_cons.1 h
    have hbelow := ih hcs
    rw [navigate, update]
    split
    · rw [bind_of_ok (onPart_of_ok (hbelow _)), onPart_of_ok (eachChild_of_ok hbelow _),
        templateOrNew, Component.nodeName?_of_legible hc]
      rfl
    · rw [Component.nodeName?_of_legible hc]
      exact onPart_of_ok (hbelow _)

/-- The node with what is made on the way to the first index that is too long. -/
def halted : List Component → Node → Node
  | [], n => n
  | c :: cs, n =>
    if c.Legible then
      if c.isWildcard then n.withTemplate (halted cs (n.templateOrNew c))
      else n.withChild c.label (halted cs (n.childOrNew c.label))
    else n

/-- An index that is too long stops a path, and what is left does not depend on what was to be done
at its end. -/
theorem navigate_of_not_legible (f : Node → Node) (h : ¬ ∀ c ∈ cs, c.Legible) (n : Node) :
    navigate f cs n = .error .unnamedIndex (halted cs n) := by
  induction cs generalizing n with
  | nil => exact absurd (List.forall_mem_nil _) h
  | cons c cs ih =>
    rw [navigate, halted]
    by_cases hc : c.Legible
    · have hcs : ¬ ∀ d ∈ cs, d.Legible := fun hcs => h (List.forall_mem_cons.2 ⟨hc, hcs⟩)
      rw [if_pos hc]
      split
      · -- the template comes first, so no child is reached
        have hstop : onPart (·.templateOrNew c) withTemplate (navigate f cs) n =
            .error .unnamedIndex (n.withTemplate (halted cs (n.templateOrNew c))) :=
          onPart_of_error (ih hcs _)
        exact bind_of_error hstop _
      · rw [Component.nodeName?_of_legible hc]
        exact onPart_of_error (ih hcs _)
    · have hw : ¬ c.isWildcard = true := fun hw => hc (Component.legible_of_isWildcard hw)
      rw [if_neg hc, if_neg hw, Component.nodeName?_of_not_legible hc]
      rfl

end Node

end JsonExpect
