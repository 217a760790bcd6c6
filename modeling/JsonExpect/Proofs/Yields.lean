import Mathlib.Data.List.Basic
import Mathlib.Data.List.Forall2

/-!
# What computations that can fail give

A computation `Yields` a property if all its results have it, whether or not it gives one. The
property passes through each way to put computations together.
-/

namespace JsonExpect

/-- Whether a computation that can fail gives only results with a property. -/
def Yields {ε α : Type} (P : α → Prop) (x : Except ε α) : Prop := ∀ a, x = .ok a → P a

section Yields

variable {ε α β : Type} {P : α → Prop} {Q : β → Prop}

theorem yields_ok {a : α} (h : P a) : Yields P (Except.ok a : Except ε α) := by
  rintro _ ⟨⟩
  exact h

theorem yields_error (e : ε) : Yields P (.error e) := nofun

theorem Yields.bind {x : Except ε α} {f : α → Except ε β} (hx : Yields P x)
    (hf : ∀ a, P a → Yields Q (f a)) : Yields Q (x >>= f) := by
  cases x with
  | error e => exact yields_error e
  | ok a => exact hf a (hx a rfl)

/-- Computations in turn give what the second gives for what the first does. -/
theorem bind_eq_ok_iff {x : Except ε α} {f : α → Except ε β} {b : β} :
    (x >>= f) = .ok b ↔ ∃ a, x = .ok a ∧ f a = .ok b := by
  cases x with
  | error e => exact ⟨nofun, fun ⟨_, ha, _⟩ => by cases ha⟩
  | ok a => exact ⟨fun h => ⟨a, rfl, h⟩, fun ⟨_, ha, h⟩ => Except.ok.inj ha ▸ h⟩

/-- They fail where the first does, or the second for what the first gives. -/
theorem bind_eq_error_iff {x : Except ε α} {f : α → Except ε β} {e : ε} :
    (x >>= f) = .error e ↔ x = .error e ∨ ∃ a, x = .ok a ∧ f a = .error e := by
  cases x with
  | error e' => exact ⟨fun h => .inl (congrArg _ (Except.error.inj h)), fun h => by
      obtain h | ⟨_, h, _⟩ := h
      · exact congrArg _ (Except.error.inj h)
      · cases h⟩
  | ok a => exact ⟨fun h => .inr ⟨a, rfl, h⟩, fun h => by
      obtain h | ⟨_, h, he⟩ := h
      · cases h
      · exact Except.ok.inj h ▸ he⟩

theorem Yields.map {x : Except ε α} {f : α → β} (hx : Yields P x) (hf : ∀ a, P a → Q (f a)) :
    Yields Q (x.map f) := by
  cases x with
  | error e => exact yields_error e
  | ok a => exact yields_ok (hf a (hx a rfl))

/-- What is left of a computation without its error is what it gives. -/
theorem eq_ok_of_toOption {x : Except ε α} {a : α} (h : x.toOption = some a) : x = .ok a := by
  cases x with
  | ok b => exact congrArg Except.ok (Option.some.inj h)
  | error e => cases h

/-- What each of the computations gives has the property. -/
theorem yields_mapM {f : α → Except ε β} {as : List α} (h : ∀ a ∈ as, Yields Q (f a)) :
    Yields (fun bs => ∀ b ∈ bs, Q b) (as.mapM f) := by
  induction as with
  | nil => exact yields_ok (List.forall_mem_nil Q)
  | cons a as ih =>
    obtain ⟨ha, has⟩ := List.forall_mem_cons.1 h
    rw [List.mapM_cons]
    exact ha.bind fun b hb => (ih has).bind fun bs hbs =>
      yields_ok (List.forall_mem_cons.2 ⟨hb, hbs⟩)

/-- The computations give a result for each, in their order. -/
theorem yields_mapM_forall₂ {R : α → β → Prop} {f : α → Except ε β} {as : List α}
    (h : ∀ a ∈ as, Yields (R a) (f a)) : Yields (List.Forall₂ R as) (as.mapM f) := by
  induction as with
  | nil => exact yields_ok .nil
  | cons a as ih =>
    obtain ⟨ha, has⟩ := List.forall_mem_cons.1 h
    rw [List.mapM_cons]
    exact ha.bind fun b hb => (ih has).bind fun bs hbs => yields_ok (.cons hb hbs)

/-- The results are those of the computations in turn. -/
theorem mapM_eq_ok_iff {f : α → Except ε β} {as : List α} {bs : List β} :
    as.mapM f = .ok bs ↔ List.Forall₂ (fun a b => f a = .ok b) as bs := by
  constructor
  · exact yields_mapM_forall₂ (fun _ _ _ h => h) bs
  · intro h
    induction h with
    | nil => rfl
    | cons hab _ ih => rw [List.mapM_cons, hab, ih]; rfl

/-- The error is that of the first computation that fails. -/
theorem mapM_eq_error_iff {f : α → Except ε β} {as : List α} {e : ε} :
    as.mapM f = .error e ↔ ∃ before a after, as = before ++ a :: after ∧
      (∀ b ∈ before, ∃ c, f b = .ok c) ∧ f a = .error e := by
  constructor
  · intro h
    induction as with
    | nil => cases h
    | cons a as ih =>
      rw [List.mapM_cons] at h
      cases ha : f a with
      | error e' =>
        rw [ha] at h
        exact ⟨[], a, as, rfl, List.forall_mem_nil _, ha.trans (congrArg _ (Except.error.inj h))⟩
      | ok c =>
        cases has : as.mapM f with
        | ok bs => rw [ha, has] at h; cases h
        | error e' =>
          rw [ha, has] at h
          obtain ⟨before, b, after, rfl, hbefore, hb⟩ :=
            ih (has.trans (congrArg _ (Except.error.inj h)))
          exact ⟨a :: before, b, after, rfl, List.forall_mem_cons.2 ⟨⟨c, ha⟩, hbefore⟩, hb⟩
  · rintro ⟨before, a, after, rfl, hbefore, ha⟩
    induction before with
    | nil => rw [List.nil_append, List.mapM_cons, ha]; rfl
    | cons b before ih =>
      obtain ⟨⟨c, hc⟩, hbefore⟩ := List.forall_mem_cons.1 hbefore
      rw [List.cons_append, List.mapM_cons, hc, ih hbefore]
      rfl

/-- What is kept are those for which the computation gives true. -/
theorem yields_filterM_eq {f : α → Except ε Bool} {as : List α} :
    Yields (fun bs => bs = as.filter fun a => (f a).toOption.getD false) (as.filterM f) := by
  have hkept : ∀ kept : List α, Yields (fun bs => bs.reverse = kept.reverse ++
      as.filter fun a => (f a).toOption.getD false) (as.filterAuxM f kept) := by
    induction as with
    | nil => exact fun kept => yields_ok (by simp)
    | cons a as ih =>
      intro kept
      rw [List.filterAuxM]
      cases ha : f a with
      | error e => exact yields_error e
      | ok keep =>
        cases keep with
        | true =>
          rw [List.filter_cons_of_pos (by simp [ha, Except.toOption]), List.append_cons,
            ← List.reverse_cons]
          exact ih (a :: kept)
        | false =>
          rw [List.filter_cons_of_neg (by simp [ha, Except.toOption])]
          exact ih kept
  exact (hkept []).bind fun bs hbs => yields_ok hbs

/-- What is kept was there. -/
theorem yields_filterM {f : α → Except ε Bool} {as : List α} (h : ∀ a ∈ as, P a) :
    Yields (fun bs => ∀ b ∈ bs, P b) (as.filterM f) := by
  intro bs hbs b hb
  rw [yields_filterM_eq bs hbs] at hb
  exact h b (List.mem_of_mem_filter hb)

end Yields

end JsonExpect
