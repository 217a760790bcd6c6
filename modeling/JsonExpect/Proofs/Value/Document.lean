import Mathlib.Data.List.Nodup
import JsonExpect.Location
import JsonExpect.Validation.Constraints

/-!
# Documents and their locations

A JSON value at every depth is a document: its objects are named by strings, each of them once. The
locations of a value are listed in pre-order, members and items in the order in which they stand.
`Value.locate` follows a location and ends at a missing value where the location leads nowhere;
`Node.along` follows it through an option tree.
-/

namespace JsonExpect

/-- A JSON value at every depth. -/
inductive Value.IsDocument : Value → Prop where
  | null : IsDocument .null
  | bool (b : Bool) : IsDocument (.bool b)
  | int (n : Int) : IsDocument (.int n)
  | float (x : Binary64) : IsDocument (.float x)
  | string (s : String) : IsDocument (.string s)
  | array {items : List Value} (all : ∀ v ∈ items, IsDocument v) : IsDocument (.array items)
  | object {members : List (Key × Value)} (strings : ∀ m ∈ members, ∃ s, m.1 = .string s)
      (distinct : (members.map Prod.fst).Nodup) (all : ∀ m ∈ members, IsDocument m.2) :
      IsDocument (.object members)

namespace Value

/-- Whether a value is an array or an object. -/
def isCollection (v : Value) : Bool := v.kind? = some .array || v.kind? = some .object

/-- The number of entries of a collection. -/
def size : Value → Nat
  | .array items => items.length
  | .object members => members.length
  | _ => 0

/-- What a key or an index leads to, missing where there is nothing. -/
def entry (v : Value) (k : Key) : Value :=
  match v, k with
  | .object members, k => (findMember? k members).getD .missing
  | .array items, .int (.ofNat i) => items.getD i .missing
  | _, _ => .missing

/-- The value at a location, missing where the location leads nowhere. -/
def locate (v : Value) (l : Location) : Value := l.foldl entry v

mutual

/-- The locations of a value and of all inside it, in pre-order. -/
def locations : Value → List Location
  | .array items => [] :: itemLocations 0 items
  | .object members => [] :: memberLocations members
  | _ => [[]]

/-- The locations in items, the first of which stands at `index`. -/
def itemLocations (index : Nat) : List Value → List Location
  | [] => []
  | v :: vs => (locations v).map (.int index :: ·) ++ itemLocations (index + 1) vs

/-- The locations in members. -/
def memberLocations : List (Key × Value) → List Location
  | [] => []
  | (k, v) :: ms => (locations v).map (k :: ·) ++ memberLocations ms

end

@[simp] theorem locate_nil (v : Value) : v.locate [] = v := rfl

@[simp] theorem locate_cons (v : Value) (k : Key) (l : Location) :
    v.locate (k :: l) = (v.entry k).locate l := rfl

@[simp] theorem entry_object (members : List (Key × Value)) (k : Key) :
    (Value.object members).entry k = (findMember? k members).getD .missing := rfl

@[simp] theorem entry_array (items : List Value) (i : Nat) :
    (Value.array items).entry (.int i) = items.getD i .missing := rfl

end Value

namespace Value

/-! ## Long integers -/

theorem anyLongInteger_iff {items : List Value} :
    anyLongInteger items = true ↔ ∃ v ∈ items, v.holdsLongInteger = true := by
  induction items with
  | nil => simp [anyLongInteger]
  | cons v vs ih => rw [anyLongInteger, Bool.or_eq_true, ih, List.exists_mem_cons_iff]

theorem memberLongInteger_iff {members : List (Key × Value)} :
    memberLongInteger members = true ↔
      ∃ m ∈ members, m.1.holdsLongInteger = true ∨ m.2.holdsLongInteger = true := by
  induction members with
  | nil => simp [memberLongInteger]
  | cons m ms ih =>
    rw [memberLongInteger, Bool.or_eq_true, Bool.or_eq_true, ih, List.exists_mem_cons_iff]

/-! ## Locations -/

theorem cons_injective (k : Key) : Function.Injective fun l : Location => k :: l :=
  fun _ _ h => (List.cons.inj h).2

/-- The first key of a location in items is an index that is not below the first. -/
theorem head_of_mem_itemLocations {vs : List Value} {i : Nat} {l : Location}
    (h : l ∈ itemLocations i vs) : ∃ j l', i ≤ j ∧ l = .int ↑j :: l' := by
  induction vs generalizing i with
  | nil => cases h
  | cons v vs ih =>
    rcases List.mem_append.1 h with h | h
    · obtain ⟨l', _, rfl⟩ := List.mem_map.1 h
      exact ⟨i, l', Nat.le_refl i, rfl⟩
    · obtain ⟨j, l', hj, rfl⟩ := ih h
      exact ⟨j, l', by omega, rfl⟩

/-- The first key of a location in members is the name of a member. -/
theorem head_of_mem_memberLocations {ms : List (Key × Value)} {l : Location}
    (h : l ∈ memberLocations ms) : ∃ m ∈ ms, ∃ l', l = m.1 :: l' := by
  induction ms with
  | nil => cases h
  | cons m ms ih =>
    rcases List.mem_append.1 h with h | h
    · obtain ⟨l', _, rfl⟩ := List.mem_map.1 h
      exact ⟨m, List.mem_cons_self, l', rfl⟩
    · obtain ⟨m', hm, hl⟩ := ih h
      exact ⟨m', List.mem_cons_of_mem _ hm, hl⟩

/-- The first location is the value itself, and all others are below a key. -/
theorem locations_eq_cons (v : Value) :
    ∃ ls, v.locations = [] :: ls ∧ ∀ l ∈ ls, ∃ k l', l = k :: l' := by
  cases v with
  | array items =>
    refine ⟨_, rfl, fun l hl => ?_⟩
    obtain ⟨j, l', _, h⟩ := head_of_mem_itemLocations hl
    exact ⟨_, l', h⟩
  | object members =>
    refine ⟨_, rfl, fun l hl => ?_⟩
    obtain ⟨m, _, l', h⟩ := head_of_mem_memberLocations hl
    exact ⟨_, l', h⟩
  | _ => exact ⟨[], rfl, by simp⟩

theorem nil_mem_locations (v : Value) : [] ∈ v.locations := by
  obtain ⟨ls, hl, _⟩ := v.locations_eq_cons
  rw [hl]
  exact List.mem_cons_self

theorem nodup_itemLocations {vs : List Value} (h : ∀ v ∈ vs, v.locations.Nodup) (i : Nat) :
    (itemLocations i vs).Nodup := by
  induction vs generalizing i with
  | nil => exact List.nodup_nil
  | cons v vs ih =>
    refine List.Nodup.append ((h v List.mem_cons_self).map (cons_injective _))
      (ih (fun v hv => h v (List.mem_cons_of_mem _ hv)) (i + 1)) ?_
    intro l hl hl'
    obtain ⟨_, _, rfl⟩ := List.mem_map.1 hl
    obtain ⟨j, _, hj, heq⟩ := head_of_mem_itemLocations hl'
    have : (i : Int) = j := Key.int.inj (List.cons.inj heq).1
    omega

theorem nodup_memberLocations {ms : List (Key × Value)} (h : ∀ m ∈ ms, m.2.locations.Nodup)
    (distinct : (ms.map Prod.fst).Nodup) : (memberLocations ms).Nodup := by
  induction ms with
  | nil => exact List.nodup_nil
  | cons m ms ih =>
    obtain ⟨hm, hms⟩ := List.nodup_cons.1 distinct
    refine List.Nodup.append ((h m List.mem_cons_self).map (cons_injective _))
      (ih (fun m hm => h m (List.mem_cons_of_mem _ hm)) hms) ?_
    intro l hl hl'
    obtain ⟨_, _, rfl⟩ := List.mem_map.1 hl
    obtain ⟨m', hm', _, heq⟩ := head_of_mem_memberLocations hl'
    exact hm (List.mem_map.2 ⟨m', hm', (List.cons.inj heq).1.symm⟩)

/-- Each location of a document is listed once. -/
theorem IsDocument.nodup_locations {v : Value} (h : v.IsDocument) : v.locations.Nodup := by
  induction h with
  | array _ ih =>
    refine List.nodup_cons.2 ⟨fun hm => ?_, nodup_itemLocations ih 0⟩
    obtain ⟨_, _, _, h⟩ := head_of_mem_itemLocations hm
    cases h
  | object _ distinct _ ih =>
    refine List.nodup_cons.2 ⟨fun hm => ?_, nodup_memberLocations ih distinct⟩
    obtain ⟨_, _, _, h⟩ := head_of_mem_memberLocations hm
    cases h
  | _ => exact List.nodup_singleton []

end Value

/-- The configuration at the end of a location. -/
def Node.along (n : Node) (l : Location) : Node := l.foldl Node.resolveKey n

@[simp] theorem Node.along_nil (n : Node) : n.along [] = n := rfl

@[simp] theorem Node.along_cons (n : Node) (k : Key) (l : Location) :
    n.along (k :: l) = (n.resolveKey k).along l := rfl

/-- Along keys that can be written a location is a sequence of names. -/
theorem Node.along_eq_resolveAll {l : Location} (h : ∀ k ∈ l, k.isWritable = true) (n : Node) :
    n.along l = n.resolveAll (l.map Key.display) := by
  induction l generalizing n with
  | nil => rfl
  | cons k l ih =>
    obtain ⟨hk, hl⟩ := List.forall_mem_cons.1 h
    have hkey : n.resolveKey k = n.resolve k.display := by
      cases k with
      | null => cases hk
      | _ => rfl
    rw [along_cons, hkey, ih hl]
    rfl

theorem Key.same_string (s t : String) : (Key.string s).same (.string t) = decide (s = t) := rfl

/-- Only a name itself is the same key as the name. -/
theorem Key.same_string_iff {s : String} {k : Key} :
    (Key.string s).same k = true ↔ k = .string s := by
  constructor
  · intro h
    cases k with
    | string t => rw [eq_of_beq h]
    | _ => cases h
  · rintro rfl
    exact beq_self_eq_true s

theorem Key.eq_of_same_string {s : String} {k : Key} (h : k.same (.string s) = true) :
    k = .string s := by
  cases k with
  | string t => rw [eq_of_beq h]
  | _ => cases h

/-- What is found under a name is the value of a member. -/
theorem exists_mem_of_findMember? {k : Key} {members : List (Key × Value)} {v : Value}
    (h : findMember? k members = some v) : ∃ m ∈ members, m.2 = v := by
  obtain ⟨m, hm, hv⟩ := Option.map_eq_some_iff.1 h
  exact ⟨m, List.mem_of_find?_eq_some hm, hv⟩

namespace Value

variable {members : List (Key × Value)} {items : List Value}

theorem not_holdsLongInteger_missing : Value.missing.holdsLongInteger ≠ true := by
  simp [holdsLongInteger]

/-- What is found in an object has an integer of too many digits only where the object has one. -/
theorem holdsLongInteger_of_findMember? {k : Key}
    (h : ((findMember? k members).getD .missing).holdsLongInteger = true) :
    (Value.object members).holdsLongInteger = true := by
  cases hfind : findMember? k members with
  | none =>
    rw [hfind] at h
    exact absurd h not_holdsLongInteger_missing
  | some v =>
    rw [hfind] at h
    obtain ⟨m, hm, rfl⟩ := exists_mem_of_findMember? hfind
    rw [holdsLongInteger, memberLongInteger_iff]
    exact ⟨m, hm, .inr h⟩

theorem holdsLongInteger_of_mem {v : Value} (hv : v ∈ items) (h : v.holdsLongInteger = true) :
    (Value.array items).holdsLongInteger = true := by
  rw [holdsLongInteger, anyLongInteger_iff]
  exact ⟨v, hv, h⟩

theorem holdsLongInteger_array (h : ∀ v ∈ items, v.holdsLongInteger = false) :
    (Value.array items).holdsLongInteger = false := by
  refine Bool.eq_false_iff.2 fun hlong => ?_
  rw [holdsLongInteger, anyLongInteger_iff] at hlong
  obtain ⟨v, hv, hlong⟩ := hlong
  rw [h v hv] at hlong
  cases hlong

theorem holdsLongInteger_of_entry {v : Value} {k : Key}
    (h : (v.entry k).holdsLongInteger = true) : v.holdsLongInteger = true := by
  cases v with
  | object members => exact holdsLongInteger_of_findMember? h
  | array items =>
    have hitem : ∀ i, (items.getD i .missing).holdsLongInteger = true →
        (Value.array items).holdsLongInteger = true := by
      intro i hi
      rw [List.getD_eq_getElem?_getD] at hi
      cases hv : items[i]? with
      | none =>
        rw [hv] at hi
        exact absurd hi not_holdsLongInteger_missing
      | some v =>
        rw [hv] at hi
        exact holdsLongInteger_of_mem (List.mem_of_getElem? hv) hi
    cases k with
    | int n =>
      cases n with
      | ofNat i => exact hitem i h
      | negSucc => exact absurd h not_holdsLongInteger_missing
    | _ => exact absurd h not_holdsLongInteger_missing
  | _ => exact absurd h not_holdsLongInteger_missing

/-- Nothing that stands at a location has an integer of too many digits where the whole has none. -/
theorem holdsLongInteger_of_locate {v : Value} {l : Location}
    (h : (v.locate l).holdsLongInteger = true) : v.holdsLongInteger = true := by
  induction l generalizing v with
  | nil => exact h
  | cons k l ih => exact holdsLongInteger_of_entry (ih h)

end Value

/-- Among string names what is found under a key is the value of the member of just this key. -/
theorem mem_of_findMember? {members : List (Key × Value)}
    (strings : ∀ m ∈ members, ∃ s, m.1 = .string s) {k : Key} {v : Value}
    (h : findMember? k members = some v) : (k, v) ∈ members := by
  obtain ⟨m, hfind, rfl⟩ := Option.map_eq_some_iff.1 h
  have hm : m ∈ members := List.mem_of_find?_eq_some hfind
  obtain ⟨s, hs⟩ := strings m hm
  have hsame := List.find?_some hfind
  rw [hs, Key.same_string_iff] at hsame
  rwa [hsame, ← hs]

/-- Among distinct string names each finds its own member. -/
theorem findMember?_of_mem {members : List (Key × Value)}
    (strings : ∀ m ∈ members, ∃ s, m.1 = .string s) (distinct : (members.map Prod.fst).Nodup)
    {m : Key × Value} (hm : m ∈ members) :
    findMember? m.1 members = some m.2 := by
  induction members with
  | nil => cases hm
  | cons d ds ih =>
    obtain ⟨hd, hds⟩ := List.nodup_cons.1 distinct
    obtain ⟨s, hs⟩ := strings d List.mem_cons_self
    rcases List.mem_cons.1 hm with rfl | hm
    · simp [findMember?, hs, Key.same_string]
    · obtain ⟨t, ht⟩ := strings m (List.mem_cons_of_mem _ hm)
      have hne : s ≠ t := by
        rintro rfl
        exact hd (List.mem_map.2 ⟨m, hm, by rw [hs, ht]⟩)
      have := ih (fun m hm => strings m (List.mem_cons_of_mem _ hm)) hds hm
      rw [findMember?, List.find?_cons_of_neg (by simp [hs, ht, Key.same_string, hne])]
      exact this

end JsonExpect
