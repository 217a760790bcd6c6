import Mathlib.Data.List.Forall2
import Mathlib.Data.List.Perm.Subperm

/-!
# Drawing from a pool

The elements that may match in any order draw from a pool: each in turn takes the first that it
accepts, and none gives its own back. `Draws` says that all of them find something.

An assignment of all elements may exist where drawing fails, since an early element can take what
only a later one could use; the order of the pool then decides. `forall_perm_draws_iff` says exactly
when it does not: no order helps as no assignment exists, or no order hurts as no draws, however
they are made, leave the next element without anything (`Unblocked`). Elements that can stand in for
one another wherever they compete never block (`Draws.of_assignable`).
-/

namespace JsonExpect.Comparison

variable {α β : Type*} {R : α → β → Prop}

/-- Each of the elements in turn takes the first of the pool that it accepts, and finds one. -/
inductive Draws (R : α → β → Prop) : List α → List β → Prop where
  | nil (pool : List β) : Draws R [] pool
  | cons {v : α} {vs : List α} {before after : List β} {b : β} (passed : ∀ a ∈ before, ¬ R v a)
      (taken : R v b) (rest : Draws R vs (before ++ after)) :
      Draws R (v :: vs) (before ++ b :: after)

/-- There is something in the pool for each of the elements, all at once. -/
def Assignable (R : α → β → Prop) (vs : List α) (pool : List β) : Prop :=
  ∃ l, List.Forall₂ R vs l ∧ l.Subperm pool

/-- Whatever the elements before it have taken, each element finds something that it accepts. -/
def Unblocked (R : α → β → Prop) (vs : List α) (pool : List β) : Prop :=
  ∀ us v ws l, vs = us ++ v :: ws → List.Forall₂ R us l → l.Subperm pool →
    ∃ b, R v b ∧ (b :: l).Subperm pool

/-- Of two elements that both accept something in the pool, each accepts all that the other does. -/
def Exchangeable (R : α → β → Prop) (vs : List α) (pool : List β) : Prop :=
  ∀ v ∈ vs, ∀ w ∈ vs, ∀ b ∈ pool, ∀ c ∈ pool, R v b → R w b → R v c → R w c

/-- The first element draws as far as it can reach, and the others from what is left. -/
theorem draws_cons_iff {v : α} {vs : List α} {pool : List β} :
    Draws R (v :: vs) pool ↔ ∃ before b after, pool = before ++ b :: after ∧
      (∀ a ∈ before, ¬ R v a) ∧ R v b ∧ Draws R vs (before ++ after) := by
  constructor
  · intro h
    cases h with
    | cons passed taken rest => exact ⟨_, _, _, rfl, passed, taken, rest⟩
  · rintro ⟨before, b, after, rfl, passed, taken, rest⟩
    exact .cons passed taken rest

/-- There is only one first that an element accepts. -/
theorem first_unique {v : α} {before before' after after' : List β} {b b' : β}
    (heq : before ++ b :: after = before' ++ b' :: after') (passed : ∀ a ∈ before, ¬ R v a)
    (taken : R v b) (passed' : ∀ a ∈ before', ¬ R v a) (taken' : R v b') :
    before = before' ∧ after = after' := by
  induction before generalizing before' with
  | nil =>
    cases before' with
    | nil => exact ⟨rfl, (List.cons.inj heq).2⟩
    | cons a before' =>
      obtain ⟨rfl, _⟩ := List.cons.inj heq
      exact absurd taken (passed' b List.mem_cons_self)
  | cons a before ih =>
    cases before' with
    | nil =>
      obtain ⟨rfl, _⟩ := List.cons.inj heq
      exact absurd taken' (passed a List.mem_cons_self)
    | cons a' before' =>
      obtain ⟨rfl, hrest⟩ := List.cons.inj heq
      obtain ⟨hbefore, hafter⟩ := ih hrest (fun c hc => passed c (List.mem_cons_of_mem _ hc))
        fun c hc => passed' c (List.mem_cons_of_mem _ hc)
      exact ⟨by rw [hbefore], hafter⟩

/-- Once it is known what the first element takes, the others draw from the rest. -/
theorem draws_first_iff {v : α} {vs : List α} {before after : List β} {b : β}
    (passed : ∀ a ∈ before, ¬ R v a) (taken : R v b) :
    Draws R (v :: vs) (before ++ b :: after) ↔ Draws R vs (before ++ after) := by
  constructor
  · intro h
    obtain ⟨before', b', after', heq, passed', taken', rest⟩ := draws_cons_iff.1 h
    obtain ⟨rfl, rfl⟩ := first_unique heq passed taken passed' taken'
    exact rest
  · exact .cons passed taken

/-- Where something is accepted, there is a first that is. -/
theorem exists_first {v : α} {pool : List β} (h : ∃ b ∈ pool, R v b) :
    ∃ before b after, pool = before ++ b :: after ∧ (∀ a ∈ before, ¬ R v a) ∧ R v b := by
  induction pool with
  | nil =>
    obtain ⟨b, hb, _⟩ := h
    cases hb
  | cons a pool ih =>
    by_cases ha : R v a
    · exact ⟨[], a, pool, rfl, by simp, ha⟩
    · obtain ⟨b, hb, hr⟩ := h
      have hb : b ∈ pool := by
        rcases List.mem_cons.1 hb with rfl | hb
        · exact absurd hr ha
        · exact hb
      obtain ⟨before, c, after, rfl, hpassed, hc⟩ := ih ⟨b, hb, hr⟩
      refine ⟨a :: before, c, after, rfl, ?_, hc⟩
      intro d hd
      rcases List.mem_cons.1 hd with rfl | hd
      · exact ha
      · exact hpassed d hd

theorem Draws.assignable {vs : List α} {pool : List β} (h : Draws R vs pool) :
    Assignable R vs pool := by
  induction h with
  | nil pool => exact ⟨[], .nil, List.nil_subperm⟩
  | cons _ taken _ ih =>
    obtain ⟨l, hl, hsub⟩ := ih
    refine ⟨_ :: l, .cons taken hl, ?_⟩
    rw [List.perm_middle.subperm_left]
    exact (List.subperm_cons _).2 hsub

/-- What another element holds can be had for something that this element would take instead. -/
theorem exists_exchange {vs : List α} {l : List β} {b c : β} (h : List.Forall₂ R vs l) (hb : b ∈ l)
    (hswap : ∀ w ∈ vs, R w b → R w c) : ∃ l', List.Forall₂ R vs l' ∧ (b :: l').Perm (c :: l) := by
  induction h with
  | nil => cases hb
  | @cons w x vs l hw hrest ih =>
    rcases List.mem_cons.1 hb with rfl | hb
    · exact ⟨c :: l, .cons (hswap w List.mem_cons_self hw) hrest, .swap ..⟩
    · obtain ⟨l', hl', hperm⟩ := ih hb fun w hw => hswap w (List.mem_cons_of_mem _ hw)
      refine ⟨x :: l', .cons hw hl', ?_⟩
      calc (b :: x :: l').Perm (x :: b :: l') := .swap ..
        _ |>.Perm (x :: c :: l) := hperm.cons x
        _ |>.Perm (c :: x :: l) := .swap ..

theorem Exchangeable.mono {v : α} {vs : List α} {pool pool' : List β}
    (h : Exchangeable R (v :: vs) pool) (hpool : pool' ⊆ pool) : Exchangeable R vs pool' :=
  fun u hu w hw b hb c hc =>
    h u (List.mem_cons_of_mem _ hu) w (List.mem_cons_of_mem _ hw) b (hpool hb) c (hpool hc)

/-- Elements that can stand in for one another draw whenever they can be assigned at all: if the
first takes what an assignment has for a later one, the later one takes what it had for the first.
-/
theorem Draws.of_assignable {vs : List α} {pool : List β} (hex : Exchangeable R vs pool)
    (h : Assignable R vs pool) : Draws R vs pool := by
  classical
  induction vs generalizing pool with
  | nil => exact .nil pool
  | cons v vs ih =>
    obtain ⟨_, hall, hsub⟩ := h
    obtain ⟨c, l, hvc, hl, rfl⟩ := List.forall₂_cons_left_iff.1 hall
    have hc : c ∈ pool := hsub.subset List.mem_cons_self
    obtain ⟨before, b, after, rfl, hpassed, hvb⟩ := exists_first ⟨c, hc, hvc⟩
    have hrest : before ++ after ⊆ before ++ b :: after :=
      ((List.sublist_cons_self b after).append_left before).subset
    refine .cons hpassed hvb (ih (hex.mono hrest) ?_)
    rw [List.perm_middle.subperm_left] at hsub
    by_cases hb : b ∈ l
    · have hswap : ∀ w ∈ vs, R w b → R w c := fun w hw hwb =>
        hex v List.mem_cons_self w (List.mem_cons_of_mem _ hw) b (by simp) c hc hvb hwb hvc
      obtain ⟨l', hl', hperm⟩ := exists_exchange hl hb hswap
      exact ⟨l', hl', (List.subperm_cons b).1 (hperm.subperm_right.2 hsub)⟩
    · have hsub : l.Subperm (b :: (before ++ after)) := List.Subperm.cons_self.trans hsub
      have herase := hsub.erase b
      rw [List.erase_of_not_mem hb, List.erase_cons_head] at herase
      exact ⟨l, hl, herase⟩

/-- Elements that can stand in for one another draw the whole pool just when it can be rearranged to
match them one by one. -/
theorem Exchangeable.length_eq_and_draws_iff {vs : List α} {pool : List β}
    (h : Exchangeable R vs pool) :
    vs.length = pool.length ∧ Draws R vs pool ↔ ∃ l, List.Forall₂ R vs l ∧ l.Perm pool := by
  constructor
  · rintro ⟨hlen, hdraws⟩
    obtain ⟨l, hl, hsub⟩ := hdraws.assignable
    exact ⟨l, hl, hsub.perm_of_length_le (Nat.le_of_eq (hlen.symm.trans hl.length_eq))⟩
  · rintro ⟨l, hl, hperm⟩
    exact ⟨hl.length_eq.trans hperm.length_eq, .of_assignable h ⟨l, hl, hperm.subperm⟩⟩

/-! ## Orders of the pool -/

theorem Assignable.perm {vs : List α} {pool pool' : List β} (h : Assignable R vs pool)
    (hp : pool.Perm pool') : Assignable R vs pool' := by
  obtain ⟨l, hl, hsub⟩ := h
  exact ⟨l, hl, hp.subperm_left.1 hsub⟩

theorem Unblocked.perm {vs : List α} {pool pool' : List β} (h : Unblocked R vs pool)
    (hp : pool.Perm pool') : Unblocked R vs pool' := by
  intro us v ws l hvs hl hsub
  obtain ⟨b, hb, hb'⟩ := h us v ws l hvs hl (hp.subperm_left.2 hsub)
  exact ⟨b, hb, hp.subperm_left.1 hb'⟩

/-- Once the first element has taken anything it accepts, the others are unblocked in the rest. -/
theorem Unblocked.tail {v : α} {vs : List α} {b : β} {pool : List β}
    (h : Unblocked R (v :: vs) (b :: pool)) (hb : R v b) : Unblocked R vs pool := by
  intro us w ws l hvs hl hsub
  obtain ⟨c, hc, hsub⟩ := h (v :: us) w ws (b :: l) (by rw [hvs, List.cons_append])
    (.cons hb hl) ((List.subperm_cons b).2 hsub)
  refine ⟨c, hc, (List.subperm_cons b).1 ?_⟩
  exact (List.Perm.swap c b l).subperm_right.2 hsub

theorem Unblocked.draws {vs : List α} {pool : List β} (h : Unblocked R vs pool) :
    Draws R vs pool := by
  induction vs generalizing pool with
  | nil => exact .nil pool
  | cons v vs ih =>
    obtain ⟨c, hvc, hsub⟩ := h [] v vs [] rfl .nil List.nil_subperm
    obtain ⟨before, b, after, rfl, hpassed, hvb⟩ :=
      exists_first ⟨c, List.singleton_subperm_iff.1 hsub, hvc⟩
    exact .cons hpassed hvb (ih ((h.perm List.perm_middle).tail hvb))

/-- Elements that find their own at the front of the pool take just these. -/
theorem draws_append_iff {us vs : List α} {l pool : List β} (h : List.Forall₂ R us l) :
    Draws R (us ++ vs) (l ++ pool) ↔ Draws R vs pool := by
  induction h with
  | nil => exact Iff.rfl
  | @cons u b us l hub _ ih =>
    have hpassed : ∀ a ∈ ([] : List β), ¬ R u a := by simp
    rw [← ih]
    exact draws_first_iff hpassed hub

/-- An assignment can be drawn from a pool where it is laid out in front. -/
theorem exists_perm_draws_iff {vs : List α} {pool : List β} :
    (∃ pool', pool'.Perm pool ∧ Draws R vs pool') ↔ Assignable R vs pool := by
  constructor
  · rintro ⟨pool', hp, hdraws⟩
    exact hdraws.assignable.perm hp
  · rintro ⟨l, hl, l', hl', hsub⟩
    obtain ⟨rest, hrest⟩ := hsub.exists_perm_append
    refine ⟨l ++ rest, (hrest.trans (hl'.append_right rest)).symm, ?_⟩
    rw [← List.append_nil vs, draws_append_iff hl]
    exact .nil rest

/-- All orders of the pool serve just when the elements are unblocked: what blocks an element can be
laid out in front. -/
theorem forall_perm_draws_iff_unblocked {vs : List α} {pool : List β} :
    (∀ pool', pool'.Perm pool → Draws R vs pool') ↔ Unblocked R vs pool := by
  constructor
  · rintro h us v ws l rfl hl ⟨l', hl', hsub⟩
    obtain ⟨rest, hrest⟩ := hsub.exists_perm_append
    have hperm : (l ++ rest).Perm pool := (hrest.trans (hl'.append_right rest)).symm
    obtain ⟨before, b, after, rfl, _, hvb, _⟩ :=
      draws_cons_iff.1 ((draws_append_iff hl).1 (h _ hperm))
    refine ⟨b, hvb, (hperm.subperm_left).1 ?_⟩
    have hb : [b].Subperm (before ++ b :: after) := List.singleton_subperm_iff.2 (by simp)
    exact (List.perm_append_singleton b l).symm.subperm_right.2
      ((List.subperm_append_left l).2 hb)
  · exact fun h pool' hp => (h.perm hp.symm).draws

/-- **When the order of a pool does not matter.** All orders give the same outcome just when the
elements cannot be assigned at all or are never blocked. -/
theorem forall_perm_draws_iff {vs : List α} {pool : List β} :
    (∀ pool', pool'.Perm pool → (Draws R vs pool' ↔ Draws R vs pool)) ↔
      ¬ Assignable R vs pool ∨ Unblocked R vs pool := by
  constructor
  · intro h
    by_cases ha : Assignable R vs pool
    · obtain ⟨pool', hp, hdraws⟩ := exists_perm_draws_iff.2 ha
      have hpool := (h pool' hp).1 hdraws
      exact .inr (forall_perm_draws_iff_unblocked.1 fun pool'' hp' => (h pool'' hp').2 hpool)
    · exact .inl ha
  · rintro (ha | hu) pool' hp
    · have hnone : ∀ pool'', pool''.Perm pool → ¬ Draws R vs pool'' := fun pool'' hp' hdraws =>
        ha (hdraws.assignable.perm hp')
      exact iff_of_false (hnone pool' hp) (hnone pool (.refl pool))
    · exact iff_of_true (hu.perm hp.symm).draws hu.draws

theorem Exchangeable.perm {vs : List α} {pool pool' : List β} (h : Exchangeable R vs pool)
    (hp : pool'.Perm pool) : Exchangeable R vs pool' :=
  fun v hv w hw b hb c hc => h v hv w hw b (hp.subset hb) c (hp.subset hc)

/-- Elements that can stand in for one another draw from all orders of a pool or from none. -/
theorem Exchangeable.draws_perm_iff {vs : List α} {pool pool' : List β}
    (h : Exchangeable R vs pool) (hp : pool'.Perm pool) : Draws R vs pool' ↔ Draws R vs pool :=
  ⟨fun hd => .of_assignable h (hd.assignable.perm hp),
    fun hd => .of_assignable (h.perm hp) (hd.assignable.perm hp.symm)⟩

/-! ## Counting -/

section Counting

variable {ι : Type*} {p : ι → β → Bool} {R : β → β → Prop} {vs pool : List β}

/-- Elements that accept what falls into their own class. -/
structure Classified (p : ι → β → Bool) (R : β → β → Prop) (vs : List β) : Prop where
  /-- Two classes that have something in common are the same. -/
  disjoint : ∀ i j a b, p i a = true → p j a = true → p i b = true → p j b = true
  accepts : ∀ v ∈ vs, ∀ i, p i v = true → ∀ a, R v a ↔ p i a = true
  covered : ∀ v ∈ vs, ∃ i, p i v = true

theorem Classified.tail {v : β} (h : Classified p R (v :: vs)) : Classified p R vs where
  disjoint := h.disjoint
  accepts w hw := h.accepts w (List.mem_cons_of_mem _ hw)
  covered w hw := h.covered w (List.mem_cons_of_mem _ hw)

theorem Classified.exchangeable (h : Classified p R vs) (pool : List β) :
    Exchangeable R vs pool := by
  intro v hv w hw b _ c _ hvb hwb hvc
  obtain ⟨i, hi⟩ := h.covered v hv
  obtain ⟨j, hj⟩ := h.covered w hw
  rw [h.accepts v hv i hi] at hvb hvc
  rw [h.accepts w hw j hj] at hwb ⊢
  exact h.disjoint i j b c hvb hwb hvc

/-- Elements take as many of a class as they have themselves. -/
theorem Classified.countP_le (h : Classified p R vs) {l : List β} (hl : List.Forall₂ R vs l)
    (i : ι) : vs.countP (p i) ≤ l.countP (p i) := by
  induction hl with
  | nil => exact Nat.le_refl 0
  | @cons v b vs l hvb _ ih =>
    have hrest := ih h.tail
    rw [List.countP_cons, List.countP_cons]
    by_cases hv : p i v = true
    · have hb : p i b = true := (h.accepts v List.mem_cons_self i hv b).1 hvb
      rw [if_pos hv, if_pos hb]
      omega
    · rw [if_neg hv]
      omega

/-- Elements that fall into classes can be assigned when the pool has as much of each class: what
the first takes is counted where it is counted itself, so enough is left for the others. -/
theorem Classified.assignable (h : Classified p R vs)
    (hcount : ∀ i, vs.countP (p i) ≤ pool.countP (p i)) : Assignable R vs pool := by
  induction vs generalizing pool with
  | nil => exact ⟨[], .nil, List.nil_subperm⟩
  | cons v vs ih =>
    obtain ⟨i, hi⟩ := h.covered v List.mem_cons_self
    have hpos : 0 < pool.countP (p i) := by
      refine Nat.lt_of_lt_of_le ?_ (hcount i)
      exact List.countP_pos_iff.2 ⟨v, List.mem_cons_self, hi⟩
    obtain ⟨b, hb, hpb⟩ := List.countP_pos_iff.1 hpos
    obtain ⟨before, after, rfl⟩ := List.append_of_mem hb
    have hclass : ∀ j, p j v = p j b := fun j => Bool.eq_iff_iff.2
      ⟨fun hj => h.disjoint i j v b hi hj hpb, fun hj => h.disjoint i j b v hpb hj hi⟩
    have hrest : ∀ j, vs.countP (p j) ≤ (before ++ after).countP (p j) := by
      intro j
      have hj := hcount j
      rw [List.perm_middle.countP_eq, List.countP_cons, List.countP_cons, hclass j] at hj
      exact Nat.le_of_add_le_add_right hj
    obtain ⟨l, hl, hsub⟩ := ih h.tail hrest
    refine ⟨b :: l, .cons ((h.accepts v List.mem_cons_self i hi b).2 hpb) hl, ?_⟩
    rw [List.perm_middle.subperm_left]
    exact (List.subperm_cons b).2 hsub

/-- **Drawing by class.** Elements that accept what falls into their own class draw just when no
class has more of them than of the pool. -/
theorem Classified.draws_iff (h : Classified p R vs) :
    Draws R vs pool ↔ ∀ i, vs.countP (p i) ≤ pool.countP (p i) := by
  constructor
  · intro hdraws i
    obtain ⟨l, hl, hsub⟩ := hdraws.assignable
    exact Nat.le_trans (h.countP_le hl i) (hsub.countP_le (p i))
  · exact fun hcount => .of_assignable (h.exchangeable pool) (h.assignable hcount)

end Counting

end JsonExpect.Comparison
