import JsonExpect.Proofs.Value.Document

/-!
# The entries of collections

Members and items alike are the `entries` of a collection: the values right inside it, each with the
key that leads to it. What holds of a document once it holds of its entries holds of all documents
(`IsDocument.entries_induction`), and a test that looks at one layer can be run at every depth
(`everywhere`), which decides whether a value is a document.
-/

namespace JsonExpect

namespace Value

/-- The values right inside a value, each with the key that leads to it. -/
def entries : Value → List (Key × Value)
  | .array items => items.zipIdx.map fun e => (.int ↑e.2, e.1)
  | .object members => members
  | _ => []

theorem forall_mem_entries_array {items : List Value} {P : Value → Prop} :
    (∀ e ∈ (Value.array items).entries, P e.2) ↔ ∀ v ∈ items, P v := by
  constructor
  · intro h v hv
    obtain ⟨i, hi⟩ := List.getElem?_of_mem hv
    exact h (.int ↑i, v) (List.mem_map.2 ⟨(v, i), List.mem_zipIdx_iff_getElem?.2 hi, rfl⟩)
  · intro h e he
    obtain ⟨⟨v, i⟩, hv, rfl⟩ := List.mem_map.1 he
    exact h v (List.fst_mem_of_mem_zipIdx hv)

/-- What goes over items one by one, joining lists, goes over the entries. -/
theorem eq_flatMap_entries_of_items {α : Type} {g : Key × Value → List α}
    {f : Nat → List Value → List α} (hnil : ∀ i, f i [] = [])
    (hcons : ∀ i v vs, f i (v :: vs) = g (.int ↑i, v) ++ f (i + 1) vs) (items : List Value) :
    f 0 items = (Value.array items).entries.flatMap g := by
  have hfrom : ∀ i, f i items =
      ((items.zipIdx i).map fun e => ((.int ↑e.2 : Key), e.1)).flatMap g := by
    induction items with
    | nil => exact hnil
    | cons v vs ih =>
      intro i
      rw [hcons, ih]
      rfl
  exact hfrom 0

/-- What goes over members one by one, joining lists, goes over the entries. -/
theorem eq_flatMap_entries_of_members {α : Type} {g : Key × Value → List α}
    {f : List (Key × Value) → List α} (hnil : f [] = [])
    (hcons : ∀ m ms, f (m :: ms) = g m ++ f ms) (members : List (Key × Value)) :
    f members = (Value.object members).entries.flatMap g := by
  induction members with
  | nil => exact hnil
  | cons m ms ih =>
    rw [hcons, ih]
    rfl

/-- An entry has no integer of too many digits where the whole has none. -/
theorem holdsLongInteger_of_mem_entries {v : Value} {e : Key × Value} (he : e ∈ v.entries)
    (h : e.2.holdsLongInteger = true) : v.holdsLongInteger = true := by
  cases v with
  | array items =>
    obtain ⟨x, hx, rfl⟩ := List.mem_map.1 he
    exact holdsLongInteger_of_mem (List.fst_mem_of_mem_zipIdx hx) h
  | object members => exact memberLongInteger_iff.2 ⟨e, he, .inr h⟩
  | _ => cases he

theorem sizeOf_lt_of_mem_entries {v : Value} {e : Key × Value} (h : e ∈ v.entries) :
    sizeOf e.2 < sizeOf v := by
  cases v with
  | array items =>
    have hall : ∀ w ∈ items, sizeOf w < sizeOf (Value.array items) := by
      intro w hw
      have := List.sizeOf_lt_of_mem hw
      simp only [Value.array.sizeOf_spec]
      omega
    have hentries : ∀ e ∈ (Value.array items).entries, sizeOf e.2 < sizeOf (Value.array items) :=
      forall_mem_entries_array (P := (sizeOf · < _)).2 hall
    exact hentries e h
  | object members =>
    obtain ⟨k, w⟩ := e
    have := List.sizeOf_lt_of_mem (show (k, w) ∈ members from h)
    simp only [Value.object.sizeOf_spec, Prod.mk.sizeOf_spec] at this ⊢
    omega
  | _ => cases h

/-- What is true of a value once it is of its entries is true of all values. -/
theorem entries_induction {P : Value → Prop}
    (step : ∀ v : Value, (∀ e ∈ v.entries, P e.2) → P v) (v : Value) : P v :=
  step v fun e _ => entries_induction step e.2
termination_by sizeOf v
decreasing_by exact sizeOf_lt_of_mem_entries (by assumption)

namespace IsDocument

variable {v : Value}

/-- What is true of a document once it is of its entries is true of all documents. -/
theorem entries_induction {P : Value → Prop} (h : v.IsDocument)
    (step : ∀ v : Value, v.IsDocument → (∀ e ∈ v.entries, P e.2) → P v) : P v := by
  induction h with
  | null => exact step _ .null (by simp [entries])
  | bool b => exact step _ (.bool b) (by simp [entries])
  | int n => exact step _ (.int n) (by simp [entries])
  | float x => exact step _ (.float x) (by simp [entries])
  | string s => exact step _ (.string s) (by simp [entries])
  | array all ih => exact step _ (.array all) (forall_mem_entries_array.2 ih)
  | object strings distinct all ih => exact step _ (.object strings distinct all) ih

theorem nodup_keys (h : v.IsDocument) : (v.entries.map Prod.fst).Nodup := by
  cases h with
  | array _ =>
    rw [entries, List.map_map]
    have hkeys : (Prod.fst ∘ fun e : Value × Nat => ((.int ↑e.2 : Key), e.1)) =
        (fun i : Nat => (.int ↑i : Key)) ∘ Prod.snd := rfl
    rw [hkeys, ← List.map_map, List.zipIdx_map_snd]
    exact (List.nodup_range' ..).map fun i j h => Int.ofNat_inj.1 (Key.int.inj h)
  | object _ distinct _ => exact distinct
  | _ => exact List.nodup_nil

end IsDocument

/-! ## Tests at every depth -/

mutual

/-- Whether a value and all inside it pass a test. -/
def everywhere (test : Value → Bool) : Value → Bool
  | .array items => test (.array items) && everywhereItems test items
  | .object members => test (.object members) && everywhereMembers test members
  | v => test v

/-- The same for items. -/
def everywhereItems (test : Value → Bool) : List Value → Bool
  | [] => true
  | v :: vs => everywhere test v && everywhereItems test vs

/-- The same for the values of members. -/
def everywhereMembers (test : Value → Bool) : List (Key × Value) → Bool
  | [] => true
  | (_, v) :: ms => everywhere test v && everywhereMembers test ms

end

variable {test : Value → Bool} {v : Value}

theorem everywhere_iff :
    v.everywhere test = true ↔ test v = true ∧ ∀ e ∈ v.entries, e.2.everywhere test = true := by
  have hitems : ∀ items : List Value, everywhereItems test items = true ↔
      ∀ w ∈ items, w.everywhere test = true := by
    intro items
    induction items with
    | nil => simp [everywhereItems]
    | cons w ws ih => rw [everywhereItems, Bool.and_eq_true, ih, List.forall_mem_cons]
  have hmembers : ∀ members : List (Key × Value), everywhereMembers test members = true ↔
      ∀ m ∈ members, m.2.everywhere test = true := by
    intro members
    induction members with
    | nil => simp [everywhereMembers]
    | cons m ms ih => rw [everywhereMembers, Bool.and_eq_true, ih, List.forall_mem_cons]
  cases v with
  | array items =>
    rw [everywhere, Bool.and_eq_true, hitems,
      forall_mem_entries_array (P := fun w => w.everywhere test = true)]
  | object members => rw [everywhere, Bool.and_eq_true, hmembers, entries]
  | _ => simp [everywhere, entries]

/-- What a passed test makes true of a value once it is of the entries is true where it is passed at
every depth. -/
theorem everywhere_induction {P : Value → Prop}
    (step : ∀ v : Value, test v = true → (∀ e ∈ v.entries, P e.2) → P v) (v : Value)
    (h : v.everywhere test = true) : P v := by
  induction v using entries_induction with
  | step v ih =>
    obtain ⟨htest, hentries⟩ := everywhere_iff.1 h
    exact step v htest fun e he => ih e he (hentries e he)

/-- Whether the outermost layer of a value is that of a document. -/
def isLayer : Value → Bool
  | .object members =>
    (members.all fun m => match m.1 with
      | .string _ => true
      | _ => false) && decide (members.map Prod.fst).Nodup
  | v => v.kind?.isSome

theorem isLayer_object_iff {members : List (Key × Value)} :
    (Value.object members).isLayer = true ↔
      (∀ m ∈ members, ∃ s, m.1 = .string s) ∧ (members.map Prod.fst).Nodup := by
  rw [isLayer, Bool.and_eq_true, List.all_eq_true, decide_eq_true_eq]
  refine and_congr_left fun _ => forall₂_congr fun m _ => ?_
  cases m.1 <;> simp

theorem isDocument_iff : v.IsDocument ↔ v.everywhere isLayer = true := by
  constructor
  · intro h
    refine h.entries_induction (P := fun v => v.everywhere isLayer = true) fun v hv ih => ?_
    refine everywhere_iff.2 ⟨?_, ih⟩
    cases hv with
    | object strings distinct _ => exact isLayer_object_iff.2 ⟨strings, distinct⟩
    | _ => rfl
  · refine everywhere_induction (fun v hv ih => ?_) v
    cases v with
    | null => exact .null
    | bool b => exact .bool b
    | int n => exact .int n
    | float x => exact .float x
    | string s => exact .string s
    | array items => exact .array (forall_mem_entries_array.1 ih)
    | object members =>
      obtain ⟨strings, distinct⟩ := isLayer_object_iff.1 hv
      exact .object strings distinct ih
    | _ => cases hv

instance {v : Value} : Decidable v.IsDocument := decidable_of_iff _ isDocument_iff.symm

end Value

end JsonExpect
