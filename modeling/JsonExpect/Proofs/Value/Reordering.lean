import Mathlib.Data.List.GetD
import JsonExpect.Proofs.Value.Sameness
import JsonExpect.Proofs.Value.Walk

/-!
# Documents whose members are written in another order

Two values are `Reordered` when they differ in nothing but the order in which the members of objects
are written, at any depth. Such values have the same entry under each key, up to reordering again,
and so the walks over them take the same steps, in some other order (`Reordered.visits_perm`).
-/

namespace JsonExpect

/-- Lists with the same keys, each equally often, give the same when each value gives the same as
those under the same key, up to order. -/
theorem flatMap_perm_of_keys {κ α β γ : Type} {ms : List (κ × α)} {ns : List (κ × β)}
    {f : κ × α → List γ} {g : κ × β → List γ} (keys : (ms.map Prod.fst).Perm (ns.map Prod.fst))
    (h : ∀ m ∈ ms, ∀ n ∈ ns, m.1 = n.1 → (f m).Perm (g n)) :
    (ms.flatMap f).Perm (ns.flatMap g) := by
  induction ms generalizing ns with
  | nil =>
    have hnil : ns = [] := List.map_eq_nil_iff.1 keys.symm.eq_nil
    rw [hnil]
    exact .refl _
  | cons m ms ih =>
    have hm : m.1 ∈ ns.map Prod.fst := keys.subset List.mem_cons_self
    obtain ⟨n, hn, hkey⟩ := List.mem_map.1 hm
    have hfirst : (f m).Perm (g n) := h m List.mem_cons_self n hn hkey.symm
    obtain ⟨before, after, rfl⟩ := List.append_of_mem hn
    have hkeys : (ms.map Prod.fst).Perm ((before ++ after).map Prod.fst) := by
      have hmiddle := keys.trans (List.perm_middle.map Prod.fst)
      rw [List.map_cons, List.map_cons, hkey] at hmiddle
      exact hmiddle.cons_inv
    have hrest : (ms.flatMap f).Perm ((before ++ after).flatMap g) := by
      apply ih hkeys
      intro m' hm' n' hn'
      refine h m' (List.mem_cons_of_mem _ hm') n' ?_
      exact ((List.sublist_cons_self n after).append_left before).subset hn'
    have hlist : ((n :: (before ++ after)).flatMap g).Perm ((before ++ n :: after).flatMap g) :=
      (List.perm_middle.flatMap_right g).symm
    exact (hfirst.append hrest).trans hlist

namespace Value

/-- Values that differ at most in the order in which the members of objects are written. -/
inductive Reordered : Value → Value → Prop where
  | leaf {v : Value} (h : v.isCollection = false) : Reordered v v
  | array {items items' : List Value} (size : items.length = items'.length)
      (all : ∀ i (h : i < items.length) (h' : i < items'.length), Reordered items[i] items'[i]) :
      Reordered (.array items) (.array items')
  | object {members members' : List (Key × Value)}
      (keys : (members.map Prod.fst).Perm (members'.map Prod.fst))
      (all : ∀ m ∈ members, ∀ m' ∈ members', m.1 = m'.1 → Reordered m.2 m'.2) :
      Reordered (.object members) (.object members')

namespace Reordered

variable {v v' w w' : Value}

theorem of_forall₂ {items items' : List Value} (h : List.Forall₂ Reordered items items') :
    (Value.array items).Reordered (.array items') := by
  obtain ⟨size, all⟩ := List.forall₂_iff_get.1 h
  exact .array size all

theorem kind?_eq (h : v.Reordered w) : v.kind? = w.kind? := by
  cases h <;> rfl

theorem isMissing_eq (h : v.Reordered w) : v.isMissing = w.isMissing := by
  cases h <;> rfl

theorem isCollection_eq (h : v.Reordered w) : v.isCollection = w.isCollection := by
  rw [isCollection, isCollection, h.kind?_eq]

theorem size_eq (h : v.Reordered w) : v.size = w.size := by
  cases h with
  | leaf _ => rfl
  | array size _ => exact size
  | object keys _ => simpa [size] using keys.length_eq

theorem sameScalar_eq (h : v.Reordered v') (h' : w.Reordered w') :
    v.sameScalar w = v'.sameScalar w' := by
  have hleft : ∀ u : Value, v.sameScalar u = v'.sameScalar u := by
    intro u
    cases h <;> cases u <;> rfl
  have hright : ∀ u : Value, u.sameScalar w = u.sameScalar w' := by
    intro u
    cases h' <;> cases u <;> rfl
  rw [hleft, hright]

/-- An integer of too many digits stays where members change places. -/
theorem holdsLongInteger_eq (h : v.Reordered w) : v.holdsLongInteger = w.holdsLongInteger := by
  induction h with
  | leaf _ => rfl
  | @array items items' size _ ih =>
    rw [Bool.eq_iff_iff, holdsLongInteger, holdsLongInteger, anyLongInteger_iff,
      anyLongInteger_iff]
    constructor
    · rintro ⟨v, hv, hlong⟩
      obtain ⟨i, hi, rfl⟩ := List.getElem_of_mem hv
      have hi' : i < items'.length := by omega
      exact ⟨items'[i], List.getElem_mem hi', by rwa [← ih i hi hi']⟩
    · rintro ⟨w, hw, hlong⟩
      obtain ⟨i, hi', rfl⟩ := List.getElem_of_mem hw
      have hi : i < items.length := by omega
      exact ⟨items[i], List.getElem_mem hi, by rwa [ih i hi hi']⟩
  | @object members members' keys _ ih =>
    rw [Bool.eq_iff_iff, holdsLongInteger, holdsLongInteger, memberLongInteger_iff,
      memberLongInteger_iff]
    constructor
    · rintro ⟨m, hm, hlong⟩
      obtain ⟨n, hn, hkey⟩ := List.mem_map.1 (keys.subset (List.mem_map_of_mem hm))
      exact ⟨n, hn, by rwa [hkey, ← ih m hm n hn hkey.symm]⟩
    · rintro ⟨n, hn, hlong⟩
      obtain ⟨m, hm, hkey⟩ := List.mem_map.1 (keys.symm.subset (List.mem_map_of_mem hn))
      exact ⟨m, hm, by rwa [hkey, ih m hm n hn hkey]⟩

theorem isDocument (h : v.Reordered w) (hv : v.IsDocument) : w.IsDocument := by
  induction h with
  | leaf _ => exact hv
  | @array items items' size _ ih =>
    refine .array fun w hw => ?_
    obtain ⟨i, hi, rfl⟩ := List.getElem_of_mem hw
    have hi' : i < items.length := by omega
    exact ih i hi' hi (hv.items _ (List.getElem_mem hi'))
  | @object members members' keys _ ih =>
    obtain ⟨strings, distinct, all⟩ := hv.members
    have hmember : ∀ n ∈ members', ∃ m ∈ members, m.1 = n.1 := fun n hn =>
      List.mem_map.1 (keys.symm.subset (List.mem_map_of_mem hn))
    refine .object (fun n hn => ?_) (keys.nodup_iff.1 distinct) fun n hn => ?_
    · obtain ⟨m, hm, hkey⟩ := hmember n hn
      rw [← hkey]
      exact strings m hm
    · obtain ⟨m, hm, hkey⟩ := hmember n hn
      exact ih m hm n hn hkey (all m hm)

theorem present (h : v.Reordered w) (hv : v.IsDocument ∨ v = .missing) :
    w.IsDocument ∨ w = .missing := by
  obtain hv | rfl := hv
  · exact .inl (h.isDocument hv)
  · cases h with
    | leaf _ => exact .inr rfl

/-- The keys right inside are the same, and what they lead to differs at most in order. -/
theorem entries (h : v.Reordered w) :
    (v.entries.map Prod.fst).Perm (w.entries.map Prod.fst) ∧
      ∀ e ∈ v.entries, ∀ e' ∈ w.entries, e.1 = e'.1 → e.2.Reordered e'.2 := by
  cases h with
  | leaf hleaf =>
    have hnone : v.entries = [] := by
      cases v <;> first | rfl | cases hleaf
    rw [hnone]
    exact ⟨.refl _, List.forall_mem_nil _⟩
  | @array items items' size all =>
    refine ⟨.of_eq ?_, ?_⟩
    · apply List.ext_getElem
      · simpa [Value.entries] using size
      · simp [Value.entries]
    · intro e he e' he' hkey
      obtain ⟨⟨x, i⟩, hx, rfl⟩ := List.mem_map.1 he
      obtain ⟨⟨y, j⟩, hy, rfl⟩ := List.mem_map.1 he'
      obtain rfl : i = j := Int.ofNat_inj.1 (Key.int.inj hkey)
      have hx : items[i]? = some x := List.mem_zipIdx_iff_getElem?.1 hx
      have hy : items'[i]? = some y := List.mem_zipIdx_iff_getElem?.1 hy
      obtain ⟨hi, rfl⟩ := List.getElem?_eq_some_iff.1 hx
      obtain ⟨hi', rfl⟩ := List.getElem?_eq_some_iff.1 hy
      exact all i hi hi'
  | object keys all => exact ⟨keys, all⟩

/-- In a document and a reordered one a key leads to values that differ at most in order. -/
theorem entry (h : v.Reordered w) (hv : v.IsDocument ∨ v = .missing) (k : Key) :
    (v.entry k).Reordered (w.entry k) := by
  cases h with
  | leaf hleaf =>
    have hnone : v.entry k = .missing := by
      cases v <;> first | rfl | cases hleaf
    rw [hnone]
    exact .leaf rfl
  | @array items items' size all =>
    have hindex : ∀ i : Nat, (items.getD i .missing).Reordered (items'.getD i .missing) := by
      intro i
      by_cases hi : i < items.length
      · have hi' : i < items'.length := by omega
        rw [List.getD_eq_getElem _ _ hi, List.getD_eq_getElem _ _ hi']
        exact all i hi hi'
      · have hi' : items'.length ≤ i := by omega
        rw [List.getD_eq_default _ _ (Nat.le_of_not_lt hi), List.getD_eq_default _ _ hi']
        exact .leaf rfl
    cases k with
    | int n =>
      cases n with
      | ofNat i => exact hindex i
      | negSucc i => exact .leaf rfl
    | _ => exact .leaf rfl
  | @object members members' keys all =>
    have hv : (Value.object members).IsDocument := hv.resolve_right nofun
    have hw : (Value.object members').IsDocument := isDocument (.object keys all) hv
    obtain ⟨strings, distinct, _⟩ := hv.members
    obtain ⟨strings', distinct', _⟩ := hw.members
    by_cases hk : k ∈ members.map Prod.fst
    · obtain ⟨m, hm, rfl⟩ := List.mem_map.1 hk
      obtain ⟨m', hm', hkey⟩ := List.mem_map.1 (keys.subset hk)
      rw [entry_object, entry_object, findMember?_of_mem strings distinct hm, ← hkey,
        findMember?_of_mem strings' distinct' hm']
      exact all m hm m' hm' hkey.symm
    · have hk' : k ∉ members'.map Prod.fst := fun hk' => hk (keys.symm.subset hk')
      rw [entry_object_of_not_mem strings hk, entry_object_of_not_mem strings' hk']
      exact .leaf rfl

theorem locate (h : v.Reordered w) (hv : v.IsDocument ∨ v = .missing) (l : Location) :
    (v.locate l).Reordered (w.locate l) := by
  induction l generalizing v w with
  | nil => exact h
  | cons k l ih =>
    apply ih (h.entry hv k)
    obtain hv | rfl := hv
    · exact hv.entry
    · exact .inr rfl

/-- The walks take the same steps, each equally often. -/
theorem visits_perm (h : v.Reordered w) : v.visits.Perm w.visits := by
  induction v using entries_induction generalizing w with
  | step v ih =>
    obtain ⟨keys, all⟩ := h.entries
    rw [visits_eq, visits_eq]
    refine ((flatMap_perm_of_keys keys fun e he e' he' hkey => ?_).cons _).append_right _
    rw [hkey]
    exact (ih e he (all e he e' he' hkey)).map _

end Reordered

end Value

end JsonExpect
