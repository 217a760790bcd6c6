import Mathlib.Data.List.FinRange
import Mathlib.Data.List.Forall2
import Mathlib.Data.List.Perm.Subperm
import JsonExpect.Proofs.Value.Entries

/-!
# When documents are the same, and when one meets another

Two documents are the `Same` when they differ at most in the order in which the members of objects
are written; read loosely, the items of arrays may be reordered as well, at every depth. Either way
this is symmetric and transitive, which is all that reflexivity leaves out: a double that is not a
number is not the same as itself.

A document is `MetBy` another that has what it asks for: a null asks for nothing, and collections
may hold more than is asked for unless they are counted.
-/

namespace JsonExpect

namespace Binary64

theorem same_iff {x y : Binary64} :
    x.same y = true ↔
      x.isNaN = false ∧ y.isNaN = false ∧
        (x.bits = y.bits ∨ x.isZero = true ∧ y.isZero = true) := by
  simp [same, and_assoc]

theorem same_symm {x y : Binary64} (h : x.same y = true) : y.same x = true := by
  obtain ⟨hx, hy, heq⟩ := same_iff.1 h
  exact same_iff.2 ⟨hy, hx, heq.imp Eq.symm And.symm⟩

theorem same_trans {x y z : Binary64} (h : x.same y = true) (h' : y.same z = true) :
    x.same z = true := by
  obtain ⟨hx, _, hxy⟩ := same_iff.1 h
  obtain ⟨_, hz, hyz⟩ := same_iff.1 h'
  refine same_iff.2 ⟨hx, hz, ?_⟩
  have hbits : ∀ {a b : Binary64}, a.bits = b.bits → a = b := by
    rintro ⟨_⟩ ⟨_⟩ rfl
    rfl
  rcases hxy with hxy | ⟨hx0, hy0⟩
  · rw [hbits hxy]
    exact hyz
  · rcases hyz with hyz | ⟨_, hz0⟩
    · exact .inr ⟨hx0, by rw [← hbits hyz]; exact hy0⟩
    · exact .inr ⟨hx0, hz0⟩

end Binary64

namespace Value

/-- Two equal scalars are the same scalar, or two doubles with the same value. -/
theorem sameScalar_iff {v w : Value} :
    v.sameScalar w = true ↔
      (v = w ∧ (v = .null ∨ (∃ b, v = .bool b) ∨ (∃ n, v = .int n) ∨ ∃ s, v = .string s)) ∨
        ∃ x y, v = .float x ∧ w = .float y ∧ x.same y = true := by
  constructor
  · intro h
    unfold sameScalar at h
    split at h
    · exact .inl ⟨rfl, .inl rfl⟩
    · exact .inl ⟨congrArg Value.bool (beq_iff_eq.1 h), .inr (.inl ⟨_, rfl⟩)⟩
    · exact .inl ⟨congrArg Value.int (beq_iff_eq.1 h), .inr (.inr (.inl ⟨_, rfl⟩))⟩
    · exact .inr ⟨_, _, rfl, rfl, h⟩
    · exact .inl ⟨congrArg Value.string (beq_iff_eq.1 h), .inr (.inr (.inr ⟨_, rfl⟩))⟩
    · cases h
  · rintro (⟨rfl, rfl | ⟨b, rfl⟩ | ⟨n, rfl⟩ | ⟨s, rfl⟩⟩ | ⟨x, y, rfl, rfl, h⟩)
    · rfl
    · exact beq_self_eq_true b
    · exact beq_self_eq_true n
    · exact beq_self_eq_true s
    · exact h

theorem sameScalar_symm {v w : Value} (h : v.sameScalar w = true) : w.sameScalar v = true := by
  rw [sameScalar_iff] at h ⊢
  rcases h with ⟨rfl, h⟩ | ⟨x, y, rfl, rfl, h⟩
  · exact .inl ⟨rfl, h⟩
  · exact .inr ⟨y, x, rfl, rfl, Binary64.same_symm h⟩

theorem sameScalar_trans {u v w : Value} (h : u.sameScalar v = true) (h' : v.sameScalar w = true) :
    u.sameScalar w = true := by
  rcases sameScalar_iff.1 h with ⟨rfl, _⟩ | ⟨x, y, rfl, rfl, hxy⟩
  · exact h'
  · rcases sameScalar_iff.1 h' with ⟨rfl, _⟩ | ⟨_, z, hy, rfl, hyz⟩
    · exact h
    · cases hy
      exact Binary64.same_trans hxy hyz

/-- Equal scalars are of one kind. -/
theorem kind?_of_sameScalar {v w : Value} (h : v.sameScalar w = true) : v.kind? = w.kind? := by
  rcases sameScalar_iff.1 h with ⟨rfl, _⟩ | ⟨x, y, rfl, rfl, _⟩
  · rfl
  · rfl

theorem exists_array_of_kind? {v : Value} (h : some Kind.array = v.kind?) :
    ∃ items, v = .array items := by
  cases v with
  | array items => exact ⟨items, rfl⟩
  | _ => cases h

theorem exists_object_of_kind? {v : Value} (h : some Kind.object = v.kind?) :
    ∃ members, v = .object members := by
  cases v with
  | object members => exact ⟨members, rfl⟩
  | _ => cases h

/-- Whether a JSON value is neither a collection nor null. -/
def isScalar : Value → Bool
  | .bool _ | .int _ | .float _ | .string _ => true
  | _ => false

theorem isSome_kind?_of_isScalar {v : Value} (h : v.isScalar = true) : v.kind?.isSome := by
  cases v <;> first | rfl | cases h

/-- The kind of a value says whether it is a scalar. -/
theorem isScalar_iff_kind? {v : Value} :
    v.isScalar = true ↔
      v.kind? ∈ [some .boolean, some .integer, some .number, some .string] := by
  cases v <;> simp [isScalar, kind?]

/-- Documents that differ at most in the order of members, and of items if they are read loosely. -/
inductive Same (loose : Bool) : Value → Value → Prop where
  | scalar {v w : Value} (equal : v.sameScalar w = true) : Same loose v w
  /-- Each item has its own counterpart, which stands where it does unless order is loose. -/
  | array {vs ws : List Value} (σ : Fin vs.length ≃ Fin ws.length)
      (fixed : loose = false → ∀ i, (σ i : Nat) = i)
      (all : ∀ i, Same loose (vs.get i) (ws.get (σ i))) : Same loose (.array vs) (.array ws)
  | object {ms ns : List (Key × Value)} (keys : ∀ k, k ∈ ms.map Prod.fst ↔ k ∈ ns.map Prod.fst)
      (all : ∀ m ∈ ms, ∀ n ∈ ns, m.1 = n.1 → Same loose m.2 n.2) :
      Same loose (.object ms) (.object ns)

/-- A document without a null at any depth. -/
inductive NullFree : Value → Prop where
  | bool (b : Bool) : NullFree (.bool b)
  | int (n : Int) : NullFree (.int n)
  | float (x : Binary64) : NullFree (.float x)
  | string (s : String) : NullFree (.string s)
  | array {items : List Value} (all : ∀ v ∈ items, NullFree v) : NullFree (.array items)
  | object {members : List (Key × Value)} (all : ∀ m ∈ members, NullFree m.2) :
      NullFree (.object members)

/-- What an expected document asks for is there: equal scalars, items at their positions, members
under their names. If collections are counted, none holds more entries than are expected. -/
inductive MetBy (counted : Bool) : Value → Value → Prop where
  /-- A null asks for nothing, not even that there be a value. -/
  | null (actual : Value) : MetBy counted .null actual
  | scalar {expected actual : Value} (equal : expected.sameScalar actual = true) :
      MetBy counted expected actual
  | array {items others : List Value}
      (size : if counted then items.length = others.length else items.length ≤ others.length)
      (all : ∀ i (h : i < items.length) (h' : i < others.length),
        MetBy counted items[i] others[i]) :
      MetBy counted (.array items) (.array others)
  | object {members others : List (Key × Value)}
      (size : if counted then members.length = others.length else members.length ≤ others.length)
      (all : ∀ m ∈ members, MetBy counted m.2 ((Value.object others).entry m.1)) :
      MetBy counted (.object members) (.object others)

theorem nullFree_iff {v : Value} :
    v.NullFree ↔ v.everywhere (fun w => w.kind?.isSome && !w.isNull) = true := by
  constructor
  · intro h
    induction h with
    | array _ ih => exact everywhere_iff.2 ⟨rfl, forall_mem_entries_array.2 ih⟩
    | object _ ih => exact everywhere_iff.2 ⟨rfl, ih⟩
    | _ => rfl
  · refine everywhere_induction (fun v hv ih => ?_) v
    cases v with
    | bool b => exact .bool b
    | int n => exact .int n
    | float x => exact .float x
    | string s => exact .string s
    | array items => exact .array (forall_mem_entries_array.1 ih)
    | object members => exact .object ih
    | _ => cases hv

instance {v : Value} : Decidable v.NullFree := decidable_of_iff _ nullFree_iff.symm

theorem IsDocument.isMissing_eq_false {v : Value} (h : v.IsDocument) : v.isMissing = false := by
  cases h <;> rfl

theorem IsDocument.items {items : List Value} (h : (Value.array items).IsDocument) :
    ∀ v ∈ items, v.IsDocument := by
  cases h with
  | array all => exact all

theorem IsDocument.members {members : List (Key × Value)} (h : (Value.object members).IsDocument) :
    (∀ m ∈ members, ∃ s, m.1 = .string s) ∧ (members.map Prod.fst).Nodup ∧
      ∀ m ∈ members, m.2.IsDocument := by
  cases h with
  | object strings distinct all => exact ⟨strings, distinct, all⟩

/-- Inside a document there is a document or nothing. -/
theorem IsDocument.entry {v : Value} (h : v.IsDocument) {k : Key} :
    (v.entry k).IsDocument ∨ v.entry k = .missing := by
  cases v with
  | array items =>
    cases k with
    | int n =>
      cases n with
      | ofNat i =>
        cases hfind : items[i]? with
        | none => exact .inr (by simp [hfind])
        | some w => exact .inl (by simpa [hfind] using h.items w (List.mem_of_getElem? hfind))
      | negSucc i => exact .inr rfl
    | _ => exact .inr rfl
  | object members =>
    rw [entry_object]
    cases hfind : findMember? k members with
    | none => exact .inr rfl
    | some w =>
      obtain ⟨m, hm, rfl⟩ := exists_mem_of_findMember? hfind
      exact .inl (h.members.2.2 m hm)
  | _ => exact .inr rfl

/-- Among string names nothing stands under a key that no member has. -/
theorem entry_object_of_not_mem {members : List (Key × Value)} {k : Key}
    (strings : ∀ m ∈ members, ∃ t, m.1 = .string t) (h : k ∉ members.map Prod.fst) :
    (Value.object members).entry k = .missing := by
  rw [entry_object]
  cases hfind : findMember? k members with
  | none => rfl
  | some v => exact absurd (List.mem_map_of_mem (mem_of_findMember? strings hfind)) h

section MetBy

variable {counted : Bool} {v w : Value}

theorem metBy_scalar_iff (hs : v.isScalar = true) :
    v.MetBy counted w ↔ v.sameScalar w = true := by
  constructor
  · intro h
    cases h with
    | scalar equal => exact equal
    | _ => cases hs
  · exact .scalar

theorem metBy_array_iff {items others : List Value} :
    (Value.array items).MetBy counted (.array others) ↔
      (if counted then items.length = others.length else items.length ≤ others.length) ∧
        ∀ i (h : i < items.length) (h' : i < others.length),
          MetBy counted items[i] others[i] := by
  constructor
  · intro h
    cases h with
    | scalar equal => cases equal
    | array size all => exact ⟨size, all⟩
  · rintro ⟨size, all⟩
    exact .array size all

theorem metBy_object_iff {members others : List (Key × Value)} :
    (Value.object members).MetBy counted (.object others) ↔
      (if counted then members.length = others.length else members.length ≤ others.length) ∧
        ∀ m ∈ members, MetBy counted m.2 ((Value.object others).entry m.1) := by
  constructor
  · intro h
    cases h with
    | scalar equal => cases equal
    | object size all => exact ⟨size, all⟩
  · rintro ⟨size, all⟩
    exact .object size all

/-- What meets an expected value is of its kind, unless that is null. -/
theorem MetBy.kind?_eq (h : v.MetBy counted w) (hn : v.isNull = false) : v.kind? = w.kind? := by
  cases h with
  | null => cases hn
  | scalar equal => exact kind?_of_sameScalar equal
  | array _ _ => rfl
  | object _ _ => rfl

end MetBy

section Same

variable {loose : Bool} {u v w : Value}

theorem same_scalar_iff (hs : v.isScalar = true) : Same loose v w ↔ v.sameScalar w = true := by
  constructor
  · intro h
    cases h with
    | scalar equal => exact equal
    | _ => cases hs
  · exact .scalar

theorem Same.symm (h : Same loose v w) : Same loose w v := by
  induction h with
  | scalar equal => exact .scalar (sameScalar_symm equal)
  | @array vs ws σ fixed _ ih =>
    refine .array σ.symm (fun hl j => ?_) (fun j => ?_)
    · have hj := fixed hl (σ.symm j)
      rw [σ.apply_symm_apply] at hj
      exact hj.symm
    · have hj := ih (σ.symm j)
      rw [σ.apply_symm_apply] at hj
      exact hj
  | object keys _ ih =>
    exact .object (fun k => (keys k).symm) fun n hn m hm heq => ih m hm n hn heq.symm

theorem Same.trans (h : Same loose u v) (h' : Same loose v w) : Same loose u w := by
  induction h generalizing w with
  | scalar equal =>
    cases h' with
    | scalar equal' => exact .scalar (sameScalar_trans equal equal')
    | array _ _ _ => cases sameScalar_symm equal
    | object _ _ => cases sameScalar_symm equal
  | array σ fixed _ ih =>
    cases h' with
    | scalar equal => cases equal
    | array τ fixed' all' =>
      refine .array (σ.trans τ) (fun hl i => ?_) (fun i => ih i (all' (σ i)))
      exact (fixed' hl (σ i)).trans (fixed hl i)
  | object keys _ ih =>
    cases h' with
    | scalar equal => cases equal
    | object keys' all' =>
      refine .object (fun k => (keys k).trans (keys' k)) fun m hm p hp heq => ?_
      have hk := (keys m.1).1 (List.mem_map_of_mem hm)
      obtain ⟨n, hn, hnm⟩ := List.mem_map.1 hk
      exact ih m hm n hn hnm.symm (all' n hn p hp (hnm.trans heq))

/-- What is the same is of one kind. -/
theorem Same.kind?_eq (h : Same loose v w) : v.kind? = w.kind? := by
  cases h with
  | scalar equal => exact kind?_of_sameScalar equal
  | array _ _ _ => rfl
  | object _ _ => rfl

theorem not_same_missing (v : Value) : ¬ Same loose v .missing := by
  intro h
  cases h with
  | scalar equal => cases sameScalar_symm equal

/-- Items that must stand where they do are compared position by position. -/
theorem same_array_fixed_iff {vs ws : List Value} :
    Same false (.array vs) (.array ws) ↔ vs.length = ws.length ∧
      ∀ i (h : i < vs.length) (h' : i < ws.length), Same false vs[i] ws[i] := by
  constructor
  · intro h
    cases h with
    | scalar equal => cases equal
    | array σ fixed all =>
      have hlen : vs.length = ws.length := Fin.equiv_iff_eq.1 ⟨σ⟩
      refine ⟨hlen, fun i h h' => ?_⟩
      have hi : σ ⟨i, h⟩ = ⟨i, h'⟩ := Fin.ext (fixed rfl ⟨i, h⟩)
      have := all ⟨i, h⟩
      rw [hi] at this
      exact this
  · rintro ⟨hlen, all⟩
    exact .array (finCongr hlen) (fun _ i => rfl) fun i => all i i.2 (hlen ▸ i.2)

/-- Items in loose order are the same as those of a rearrangement in turn. -/
theorem same_array_loose_iff {vs ws : List Value} :
    Same true (.array vs) (.array ws) ↔
      ∃ us, List.Forall₂ (Same true) vs us ∧ us.Perm ws := by
  classical
  constructor
  · intro h
    cases h with
    | scalar equal => cases equal
    | array σ _ all =>
      refine ⟨(List.finRange vs.length).map fun i => ws.get (σ i), ?_, ?_⟩
      · rw [List.forall₂_map_right_iff]
        have hvs : vs = (List.finRange vs.length).map vs.get := (List.map_get_finRange vs).symm
        conv_lhs => rw [hvs]
        rw [List.forall₂_map_left_iff, List.forall₂_same]
        exact fun i _ => all i
      · have hperm : ((List.finRange vs.length).map σ).Perm (List.finRange ws.length) := by
          rw [List.perm_ext_iff_of_nodup ((List.nodup_finRange _).map σ.injective)
            (List.nodup_finRange _)]
          simpa [List.mem_map] using fun j => σ.surjective j
        have := hperm.map ws.get
        rwa [List.map_map, List.map_get_finRange] at this
  · rintro ⟨us, hus, hperm⟩
    have hlen := hus.length_eq
    let σ : Fin us.length ≃ Fin ws.length :=
      ⟨hperm.idxBij, hperm.symm.idxBij, fun _ => hperm.idxBij_symm_idxBij,
        fun _ => hperm.idxBij_idxBij_symm⟩
    refine .array ((finCongr hlen).trans σ) (by simp) fun i => ?_
    have hi : ws.get (σ (finCongr hlen i)) = us.get (finCongr hlen i) :=
      hperm.getElem_idxBij_eq_getElem _
    rw [Equiv.trans_apply, hi]
    exact hus.get i.2 _

/-- Objects are the same when they have equally many members and each finds its counterpart. -/
theorem same_object_iff {ms ns : List (Key × Value)} (hms : (Value.object ms).IsDocument)
    (hns : (Value.object ns).IsDocument) :
    Same loose (.object ms) (.object ns) ↔
      ms.length = ns.length ∧ ∀ m ∈ ms, Same loose m.2 ((Value.object ns).entry m.1) := by
  obtain ⟨mstrings, mdistinct, _⟩ := hms.members
  obtain ⟨nstrings, ndistinct, _⟩ := hns.members
  have hentry : ∀ n ∈ ns, (Value.object ns).entry n.1 = n.2 := fun n hn => by
    rw [entry_object, findMember?_of_mem nstrings ndistinct hn]; rfl
  constructor
  · intro h
    cases h with
    | scalar equal => cases equal
    | object hkeys hall =>
      have hperm := (List.perm_ext_iff_of_nodup mdistinct ndistinct).2 hkeys
      refine ⟨by simpa using hperm.length_eq, fun m hm => ?_⟩
      obtain ⟨n, hn, heq⟩ := List.mem_map.1 ((hkeys m.1).1 (List.mem_map_of_mem hm))
      rw [← heq, hentry n hn]
      exact hall m hm n hn heq.symm
  · rintro ⟨hlen, hall⟩
    have hsub : ms.map Prod.fst ⊆ ns.map Prod.fst := by
      intro k hk
      obtain ⟨m, hm, rfl⟩ := List.mem_map.1 hk
      by_contra hnot
      obtain ⟨s, hs⟩ := mstrings m hm
      have hmissing : (Value.object ns).entry m.1 = .missing := by
        rw [hs] at hnot ⊢
        exact entry_object_of_not_mem nstrings hnot
      exact not_same_missing m.2 (hmissing ▸ hall m hm)
    have hperm : (ms.map Prod.fst).Perm (ns.map Prod.fst) :=
      (mdistinct.subperm hsub).perm_of_length_le (by simp [hlen])
    refine .object (fun k => hperm.mem_iff) fun m hm n hn heq => ?_
    rw [← hentry n hn, ← heq]
    exact hall m hm

/-- What is the same in order has all that is asked for, and no more. -/
theorem Same.metBy (hv : v.IsDocument) (hw : w.IsDocument) (h : Same false v w) :
    MetBy true v w := by
  induction hv generalizing w with
  | null => exact .null w
  | bool b => exact .scalar ((same_scalar_iff rfl).1 h)
  | int n => exact .scalar ((same_scalar_iff rfl).1 h)
  | float x => exact .scalar ((same_scalar_iff rfl).1 h)
  | string s => exact .scalar ((same_scalar_iff rfl).1 h)
  | @array items _ ih =>
    obtain ⟨others, rfl⟩ := exists_array_of_kind? h.kind?_eq
    obtain ⟨hlen, hall⟩ := same_array_fixed_iff.1 h
    exact .array hlen fun i hi hi' =>
      ih _ (List.getElem_mem hi) (hw.items _ (List.getElem_mem hi')) (hall i hi hi')
  | @object members strings distinct all ih =>
    obtain ⟨others, rfl⟩ := exists_object_of_kind? h.kind?_eq
    obtain ⟨hlen, hall⟩ := (same_object_iff (.object strings distinct all) hw).1 h
    refine .object hlen fun m hm => ?_
    have hsame := hall m hm
    have hpresent : (Value.object others).entry m.1 ≠ .missing := by
      intro hmissing
      rw [hmissing] at hsame
      exact not_same_missing m.2 hsame
    exact ih m hm (hw.entry.resolve_right hpresent) hsame

end Same

end Value

end JsonExpect
