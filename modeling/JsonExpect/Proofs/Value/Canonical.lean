import JsonExpect.Proofs.Json.Reader
import JsonExpect.Value.Canonical
import JsonExpect.Value.Literal

/-!
# What canonical form is

A value is canonical when nothing stands in it, at any depth, but JSON values with string names. The
canonical form of any input is canonical or missing (`Value.toCanonical_closed`). Of a collection it
is missing just when something foreign stands in it: something that is neither a JSON value nor a
tuple, or an object with a name that is no string. Otherwise it is the collection itself with an
array for each tuple. A canonical form is its own, a string or a null apart: of these, one is read
as text and the other is nothing. What an input carries can break a conversion off, namely names
that cannot be quoted and attributes that cannot be read (`Value.toCanonical_long_name`).
-/

namespace JsonExpect

def Key.isString : Key → Bool
  | .string _ => true
  | _ => false

namespace Value

/-- What stands right inside a value: its items, or the values of its members. -/
def parts : Value → List Value
  | .array items => items
  | .tuple items => items
  | .object members => members.map Prod.snd
  | _ => []

/-- A value holds itself and whatever its parts hold. -/
inductive Holds : Value → Value → Prop where
  | self (v : Value) : Holds v v
  | part {v p w : Value} (mem : p ∈ v.parts) (inside : Holds p w) : Holds v w

theorem mem_parts_of_findMember? {k : Key} {members : List (Key × Value)} {w : Value}
    (h : findMember? k members = some w) : w ∈ (Value.object members).parts := by
  obtain ⟨m, hm, rfl⟩ := exists_mem_of_findMember? h
  exact List.mem_map.2 ⟨m, hm, rfl⟩

/-- Whether the outermost layer of a value is JSON. -/
def isJson : Value → Bool
  | .object members => members.all fun m => m.1.isString
  | v => v.kind?.isSome

/-- Whether a value has no canonical form, whatever stands in it. -/
def isForeign : Value → Bool
  | .tuple _ => false
  | v => !v.isJson

/-- Nothing but JSON at any depth. -/
def IsCanonical (v : Value) : Prop := ∀ w, v.Holds w → w.isJson = true

/-- Whether a value is an array, a tuple or an object. -/
def isNested : Value → Bool
  | .array _ | .tuple _ | .object _ => true
  | _ => false

mutual

/-- The value with an array for each tuple. -/
def untupled : Value → Value
  | .array items => .array (untupledItems items)
  | .tuple items => .array (untupledItems items)
  | .object members => .object (untupledMembers members)
  | v => v

/-- The same for items. -/
def untupledItems : List Value → List Value
  | [] => []
  | v :: vs => untupled v :: untupledItems vs

/-- The same for members, whose names stay. -/
def untupledMembers : List (Key × Value) → List (Key × Value)
  | [] => []
  | (k, v) :: ms => (k, untupled v) :: untupledMembers ms

end

theorem untupledItems_eq_map (items : List Value) : untupledItems items = items.map untupled := by
  induction items with
  | nil => rfl
  | cons v vs ih => rw [untupledItems, ih, List.map_cons]

theorem untupledMembers_eq_map (members : List (Key × Value)) :
    untupledMembers members = members.map fun m => (m.1, m.2.untupled) := by
  induction members with
  | nil => rfl
  | cons m ms ih => rw [untupledMembers, ih, List.map_cons]

/-! ## Depth -/

theorem sizeOf_lt_of_mem_parts {v p : Value} (h : p ∈ v.parts) : sizeOf p < sizeOf v := by
  cases v with
  | array items =>
    have := List.sizeOf_lt_of_mem (show p ∈ items from h)
    simp only [Value.array.sizeOf_spec]
    omega
  | tuple items =>
    have := List.sizeOf_lt_of_mem (show p ∈ items from h)
    simp only [Value.tuple.sizeOf_spec]
    omega
  | object members =>
    obtain ⟨⟨k, w⟩, hm, rfl⟩ := List.mem_map.1 (show p ∈ members.map Prod.snd from h)
    have := List.sizeOf_lt_of_mem hm
    simp only [Value.object.sizeOf_spec, Prod.mk.sizeOf_spec] at this ⊢
    omega
  | _ => cases h

/-- What is true of a value once it is of its parts is true of all values. -/
theorem parts_induction {P : Value → Prop} (step : ∀ v : Value, (∀ p ∈ v.parts, P p) → P v)
    (v : Value) : P v :=
  step v fun p _ => parts_induction step p
termination_by sizeOf v
decreasing_by exact sizeOf_lt_of_mem_parts (by assumption)

theorem forall_holds_iff {Q : Value → Prop} {v : Value} :
    (∀ w, v.Holds w → Q w) ↔ Q v ∧ ∀ p ∈ v.parts, ∀ w, p.Holds w → Q w := by
  constructor
  · exact fun h => ⟨h v (.self v), fun p hp w hw => h w (.part hp hw)⟩
  · rintro ⟨hv, hparts⟩ w (_ | ⟨hp, hw⟩)
    · exact hv
    · exact hparts _ hp w hw

theorem isCanonical_iff {v : Value} :
    v.IsCanonical ↔ v.isJson = true ∧ ∀ p ∈ v.parts, p.IsCanonical := forall_holds_iff

theorem IsDocument.isCanonical {v : Value} (h : v.IsDocument) : v.IsCanonical := by
  induction h with
  | array _ ih => exact isCanonical_iff.2 ⟨rfl, ih⟩
  | object strings _ _ ih =>
    refine isCanonical_iff.2 ⟨?_, List.forall_mem_map.2 ih⟩
    refine List.all_eq_true.2 fun m hm => ?_
    obtain ⟨s, hs⟩ := strings m hm
    rw [hs]; rfl
  | _ => exact isCanonical_iff.2 ⟨rfl, by simp [parts]⟩

/-- What is held has no integer in too many digits where the whole has none. -/
theorem holdsLongInteger_of_holds {v w : Value} (h : v.Holds w)
    (hw : w.holdsLongInteger = true) : v.holdsLongInteger = true := by
  induction h with
  | self v => exact hw
  | @part v p w hp _ ih =>
    cases v with
    | array items => exact anyLongInteger_iff.2 ⟨p, hp, ih hw⟩
    | tuple items => exact anyLongInteger_iff.2 ⟨p, hp, ih hw⟩
    | object members =>
      obtain ⟨m, hm, rfl⟩ := List.mem_map.1 hp
      exact memberLongInteger_iff.2 ⟨m, hm, .inr (ih hw)⟩
    | _ => cases hp

/-! ## Values inside a document -/

/-- Whether a value is an object with a name that holds an integer of too many digits. -/
def hasLongName : Value → Bool
  | .object members => members.any fun m => m.1.holdsLongInteger
  | _ => false

/-- That a stop is due to what stands in a value: something foreign, or a name that cannot be
quoted.
-/
def Stopped (v : Value) : ConversionStop → Prop
  | .unconvertible => ∃ w, v.Holds w ∧ w.isForeign = true
  | .fault .longInteger => ∃ w, v.Holds w ∧ w.hasLongName = true
  | .fault (.unreadable _) => False

theorem Stopped.part {v p : Value} {s : ConversionStop} (hp : p ∈ v.parts) (h : p.Stopped s) :
    v.Stopped s := by
  cases s with
  | unconvertible =>
    obtain ⟨w, hw, hforeign⟩ := h
    exact ⟨w, .part hp hw, hforeign⟩
  | fault e =>
    cases e with
    | longInteger =>
      obtain ⟨w, hw, hlong⟩ := h
      exact ⟨w, .part hp hw, hlong⟩
    | unreadable => cases h

theorem isForeign_of_mem {members : List (Key × Value)} {m : Key × Value} (hm : m ∈ members)
    (hk : m.1.isString = false) : (Value.object members).isForeign = true := by
  have hall : (members.all fun m => m.1.isString) = false :=
    List.all_eq_false.2 ⟨m, hm, by rw [hk]; simp⟩
  simp [isForeign, isJson, hall]

/-- A name that is no string stops the conversion of its object. -/
theorem stopped_of_mem {members : List (Key × Value)} {m : Key × Value} (hm : m ∈ members)
    (hk : m.1.isString = false) : (Value.object members).Stopped m.1.conversionStop := by
  unfold Key.conversionStop
  split
  · next hlong => exact ⟨_, .self _, List.any_eq_true.2 ⟨m, hm, hlong⟩⟩
  · exact ⟨_, .self _, isForeign_of_mem hm hk⟩

theorem itemsCanonical_eq_ok {items : List Value}
    (h : ∀ v ∈ items, v.nestedCanonical = .ok v.untupled) :
    itemsCanonical items = .ok (items.map untupled) := by
  induction items with
  | nil => rfl
  | cons v vs ih =>
    obtain ⟨hv, hvs⟩ := List.forall_mem_cons.1 h
    rw [itemsCanonical, hv, ih hvs]
    rfl

theorem membersCanonical_eq_ok {members : List (Key × Value)}
    (h : ∀ m ∈ members, m.1.isString = true ∧ m.2.nestedCanonical = .ok m.2.untupled) :
    membersCanonical members = .ok (members.map fun m => (m.1, m.2.untupled)) := by
  induction members with
  | nil => rfl
  | cons m ms ih =>
    obtain ⟨⟨hk, hv⟩, hms⟩ := List.forall_mem_cons.1 h
    obtain ⟨k, v⟩ := m
    cases k with
    | string name => rw [membersCanonical, show v.nestedCanonical = _ from hv, ih hms]; rfl
    | _ => cases hk

/-- An item that stops is reached, unless an item before it stops. -/
theorem itemsCanonical_eq_error {items : List Value} {v : Value} {s : ConversionStop}
    (hmem : v ∈ items) (hv : v.nestedCanonical = .error s) :
    ∃ w ∈ items, ∃ s', w.nestedCanonical = .error s' ∧ itemsCanonical items = .error s' := by
  induction items with
  | nil => cases hmem
  | cons w ws ih =>
    cases hw : w.nestedCanonical with
    | error s' => exact ⟨w, List.mem_cons_self, s', hw, by rw [itemsCanonical, hw]; rfl⟩
    | ok c =>
      have hmem : v ∈ ws := by
        rcases List.mem_cons.1 hmem with rfl | hmem
        · rw [hv] at hw
          cases hw
        · exact hmem
      obtain ⟨u, hu, s', hs, hitems⟩ := ih hmem
      refine ⟨u, List.mem_cons_of_mem _ hu, s', hs, ?_⟩
      rw [itemsCanonical, hw, hitems]
      rfl

/-- A member that stops is reached, unless a member before it stops. -/
theorem membersCanonical_eq_error {members : List (Key × Value)} {m : Key × Value}
    (hmem : m ∈ members)
    (hm : m.1.isString = false ∨ ∃ s, m.2.nestedCanonical = .error s) :
    ∃ d ∈ members, ∃ s, membersCanonical members = .error s ∧
      (d.1.isString = false ∧ s = d.1.conversionStop ∨ d.2.nestedCanonical = .error s) := by
  induction members with
  | nil => cases hmem
  | cons d ds ih =>
    obtain ⟨k, v⟩ := d
    cases hk : k.isString with
    | false =>
      refine ⟨_, List.mem_cons_self, k.conversionStop, ?_, .inl ⟨hk, rfl⟩⟩
      cases k with
      | string => cases hk
      | _ => rfl
    | true =>
      cases k with
      | string name =>
        cases hv : v.nestedCanonical with
        | error s =>
          exact ⟨_, List.mem_cons_self, s, by rw [membersCanonical, hv]; rfl, .inr hv⟩
        | ok c =>
          have hmem : m ∈ ds := by
            rcases List.mem_cons.1 hmem with rfl | hmem
            · obtain hstring | ⟨s, hs⟩ := hm
              · cases hstring
              · rw [show v.nestedCanonical = _ from hs] at hv
                cases hv
            · exact hmem
          obtain ⟨d, hd, s, hds, hcause⟩ := ih hmem
          refine ⟨d, List.mem_cons_of_mem _ hd, s, ?_, hcause⟩
          rw [membersCanonical, hv, hds]
          rfl
      | _ => cases hk

/-- Where nothing foreign is held, only tuples change. -/
theorem nestedCanonical_eq_ok {v : Value} (h : ∀ w, v.Holds w → w.isForeign = false) :
    v.nestedCanonical = .ok v.untupled := by
  induction v using parts_induction with
  | step v ih =>
    obtain ⟨hv, hparts⟩ := forall_holds_iff.1 h
    have ih : ∀ p ∈ v.parts, p.nestedCanonical = .ok p.untupled := fun p hp =>
      ih p hp (hparts p hp)
    cases v with
    | array items | tuple items =>
      have hitems : itemsCanonical items = .ok (items.map untupled) := itemsCanonical_eq_ok ih
      rw [nestedCanonical, hitems, untupled, untupledItems_eq_map]
      rfl
    | object members =>
      have hnames : ∀ m ∈ members, m.1.isString = true :=
        List.all_eq_true.1 (by simpa [isForeign, isJson] using hv)
      have hmembers := membersCanonical_eq_ok fun m hm =>
        ⟨hnames m hm, ih m.2 (List.mem_map.2 ⟨m, hm, rfl⟩)⟩
      rw [nestedCanonical, hmembers, untupled, untupledMembers_eq_map]
      rfl
    | null | bool | int | float | string => rfl
    | _ => cases hv

/-- Nothing but what is foreign stops a conversion. -/
theorem exists_foreign_of_stop {v : Value} {s : ConversionStop}
    (h : v.nestedCanonical = .error s) : ∃ w, v.Holds w ∧ w.isForeign = true := by
  by_contra hnone
  rw [nestedCanonical_eq_ok fun w hw =>
    Bool.eq_false_iff.2 fun hforeign => hnone ⟨w, hw, hforeign⟩] at h
  cases h

/-- Something foreign at any depth stops the conversion of the whole, there or before. -/
theorem nestedCanonical_eq_error {v w : Value} (h : v.Holds w) (hw : w.isForeign = true) :
    ∃ s, v.nestedCanonical = .error s ∧ v.Stopped s := by
  induction v using parts_induction generalizing w with
  | step v ih =>
    have hparts : ∀ p ∈ v.parts, ∀ s, p.nestedCanonical = .error s → v.Stopped s := by
      intro p hp s hs
      obtain ⟨u, hu, hforeign⟩ := exists_foreign_of_stop hs
      obtain ⟨s', hs', hstopped⟩ := ih p hp hu hforeign
      rw [hs] at hs'
      cases hs'
      exact hstopped.part hp
    have hinside : w = v ∨ ∃ p ∈ v.parts, ∃ s, p.nestedCanonical = .error s := by
      cases h with
      | self => exact .inl rfl
      | part hp hinside =>
        obtain ⟨s, hs, -⟩ := ih _ hp hinside hw
        exact .inr ⟨_, hp, s, hs⟩
    cases v with
    | array items | tuple items =>
      obtain rfl | ⟨p, hp, s, hs⟩ := hinside
      · cases hw
      · obtain ⟨u, hu, s', hs', hitems⟩ :=
          itemsCanonical_eq_error (show p ∈ items from hp) hs
        exact ⟨s', by rw [nestedCanonical, hitems]; rfl, hparts u hu s' hs'⟩
    | object members =>
      have hmember : ∃ m ∈ members,
          m.1.isString = false ∨ ∃ s, m.2.nestedCanonical = .error s := by
        obtain rfl | ⟨p, hp, s, hs⟩ := hinside
        · obtain ⟨m, hm, hk⟩ : ∃ m ∈ members, m.1.isString = false := by
            simpa [isForeign, isJson] using hw
          exact ⟨m, hm, .inl hk⟩
        · obtain ⟨m, hm, rfl⟩ := List.mem_map.1 hp
          exact ⟨m, hm, .inr ⟨s, hs⟩⟩
      obtain ⟨m, hm, hstop⟩ := hmember
      obtain ⟨d, hd, s, hmembers, hcause⟩ := membersCanonical_eq_error hm hstop
      refine ⟨s, by rw [nestedCanonical, hmembers]; rfl, ?_⟩
      obtain ⟨hk, rfl⟩ | hs := hcause
      · exact stopped_of_mem hd hk
      · exact hparts d.2 (List.mem_map.2 ⟨d, hd, rfl⟩) s hs
    | null | bool | int | float | string =>
      obtain rfl | ⟨p, hp, -⟩ := hinside
      · cases hw
      · cases hp
    | _ => exact ⟨.unconvertible, rfl, _, .self _, rfl⟩

/-- Inside a document a value is converted as a whole or not at all. -/
theorem nestedCanonical_cases (v : Value) :
    ((∃ w, v.Holds w ∧ w.isForeign = true) ∧
        ∃ s, v.nestedCanonical = .error s ∧ v.Stopped s) ∨
      (∀ w, v.Holds w → w.isForeign = false) ∧ v.nestedCanonical = .ok v.untupled := by
  by_cases h : ∃ w, v.Holds w ∧ w.isForeign = true
  · obtain ⟨w, hw, hforeign⟩ := h
    exact .inl ⟨⟨w, hw, hforeign⟩, nestedCanonical_eq_error hw hforeign⟩
  · have h : ∀ w, v.Holds w → w.isForeign = false := fun w hw =>
      Bool.eq_false_iff.2 fun hforeign => h ⟨w, hw, hforeign⟩
    exact .inr ⟨h, nestedCanonical_eq_ok h⟩

/-- Once nothing foreign is held, the tuples are all that is not JSON. -/
theorem isCanonical_untupled {v : Value} (h : ∀ w, v.Holds w → w.isForeign = false) :
    v.untupled.IsCanonical := by
  induction v using parts_induction with
  | step v ih =>
    obtain ⟨hv, hparts⟩ := forall_holds_iff.1 h
    have ih : ∀ p ∈ v.parts, p.untupled.IsCanonical := fun p hp => ih p hp (hparts p hp)
    cases v with
    | array items | tuple items =>
      rw [untupled, untupledItems_eq_map]
      exact isCanonical_iff.2 ⟨rfl, List.forall_mem_map.2 ih⟩
    | object members =>
      have hnames : ∀ m ∈ members, m.1.isString = true :=
        List.all_eq_true.1 (by simpa [isForeign, isJson] using hv)
      rw [untupled, untupledMembers_eq_map]
      refine isCanonical_iff.2 ⟨?_, ?_⟩
      · exact List.all_eq_true.2 (List.forall_mem_map.2 hnames)
      · refine List.forall_mem_map.2 (List.forall_mem_map.2 fun m hm => ?_)
        exact ih m.2 (List.mem_map.2 ⟨m, hm, rfl⟩)
    | null | bool | int | float | string => exact isCanonical_iff.2 ⟨rfl, by simp [untupled, parts]⟩
    | _ => cases hv

theorem untupled_of_isCanonical {v : Value} (h : v.IsCanonical) : v.untupled = v := by
  induction v using parts_induction with
  | step v ih =>
    obtain ⟨hv, hparts⟩ := isCanonical_iff.1 h
    have ih : ∀ p ∈ v.parts, p.untupled = p := fun p hp => ih p hp (hparts p hp)
    cases v with
    | array items =>
      have hitems : items.map untupled = items :=
        (List.map_congr_left (g := id) ih).trans (List.map_id items)
      rw [untupled, untupledItems_eq_map, hitems]
    | object members =>
      have hmembers : ∀ m ∈ members, (m.1, m.2.untupled) = m := fun m hm =>
        Prod.ext rfl (ih m.2 (List.mem_map.2 ⟨m, hm, rfl⟩))
      rw [untupled, untupledMembers_eq_map, List.map_congr_left hmembers, List.map_id']
    | tuple => cases hv
    | _ => rfl

theorem isForeign_of_isJson {v : Value} (h : v.isJson = true) : v.isForeign = false := by
  cases v <;> first | rfl | cases h | simpa [isForeign] using h

/-- Inside a document a canonical value stays what it is. -/
theorem nestedCanonical_of_isCanonical {v : Value} (h : v.IsCanonical) :
    v.nestedCanonical = .ok v := by
  rw [nestedCanonical_eq_ok fun w hw => isForeign_of_isJson (h w hw), untupled_of_isCanonical h]

/-! ## Inputs -/

/-- What an input may hand on: the reply of an object that answers, or what can be read of one with
attributes. -/
def carried : Value → List Value
  | .responder (some reply) => [reply]
  | .record attributes => attributes.filterMap Prod.snd
  | _ => []

/-- An input carries itself and whatever is carried by what it hands on. -/
inductive Carries : Value → Value → Prop where
  | self (v : Value) : Carries v v
  | inner {v p w : Value} (mem : p ∈ v.carried) (inside : Carries p w) : Carries v w

/-- That a fault is due to what an input carries: a document with a name that cannot be quoted, or
an attribute that cannot be read. -/
def Breaks (v : Value) : ConversionFault → Prop
  | .longInteger => ∃ u w, v.Carries u ∧ u.Holds w ∧ w.hasLongName = true
  | .unreadable name => ∃ attributes, v.Carries (.record attributes) ∧ (name, none) ∈ attributes

/-- What the conversion of an input can come to. -/
def Closed (v : Value) : Except ConversionFault Value → Prop
  | .ok c => c = .missing ∨ c.IsCanonical
  | .error e => v.Breaks e

theorem Closed.inner {v p : Value} {r : Except ConversionFault Value} (hp : p ∈ v.carried)
    (h : p.Closed r) : v.Closed r := by
  cases r with
  | ok => exact h
  | error e =>
    cases e with
    | longInteger =>
      obtain ⟨u, w, hu, hw, hlong⟩ := h
      exact ⟨u, w, .inner hp hu, hw, hlong⟩
    | unreadable name =>
      obtain ⟨attributes, hcarried, hname⟩ := h
      exact ⟨attributes, .inner hp hcarried, hname⟩

theorem isResult_ofText (text : String) : ofText text = .missing ∨ (ofText text).IsCanonical := by
  unfold ofText
  cases h : Json.read? Json.documentDialect text with
  | none => exact .inr (IsDocument.string text).isCanonical
  | some v => exact .inr (Json.isDocument_of_read? h).isCanonical

theorem isResult_ofBytes (data : List UInt8) :
    ofBytes data = .missing ∨ (ofBytes data).IsCanonical := by
  unfold ofBytes
  split
  · exact isResult_ofText _
  · exact .inl rfl

/-- What is looked up under a name stands there. -/
theorem mem_of_lookup_eq_some {name : String} {found : Option Value}
    {attributes : List (String × Option Value)} (h : attributes.lookup name = some found) :
    (name, found) ∈ attributes := by
  induction attributes with
  | nil => cases h
  | cons a rest ih =>
    obtain ⟨n, v⟩ := a
    rw [List.lookup_cons] at h
    split at h
    · next heq =>
      cases h
      rw [eq_of_beq heq]
      exact List.mem_cons_self
    · exact List.mem_cons_of_mem _ (ih h)

theorem closed_nestedCanonical (v : Value) : v.Closed (orMissing v.nestedCanonical) := by
  obtain ⟨-, s, hs, hstopped⟩ | ⟨h, hok⟩ := v.nestedCanonical_cases
  · rw [hs]
    cases s with
    | unconvertible => exact .inl rfl
    | fault e =>
      cases e with
      | longInteger =>
        obtain ⟨w, hw, hlong⟩ := hstopped
        exact ⟨v, w, .self v, hw, hlong⟩
      | unreadable => cases hstopped
  · rw [hok]
    exact .inr (isCanonical_untupled h)

mutual

/-- However deep an input has to be unwrapped, what comes out is canonical or missing, or the
conversion breaks off for what has been met on the way. -/
theorem closed_toCanonical : ∀ v : Value, v.Closed v.toCanonical
  | .missing => .inl rfl
  | .null => .inl rfl
  | .string text => isResult_ofText text
  | .bytes _ data => isResult_ofBytes data
  | .responder none => .inl rfl
  | .responder (some reply) => by
    rw [toCanonical]
    exact (closed_toCanonical reply).inner (List.mem_singleton.2 rfl)
  | .record attributes => by
    rw [toCanonical]
    split
    · next hjson =>
      exact ⟨attributes, .self _, mem_of_lookup_eq_some hjson⟩
    · have hall : ∀ a ∈ attributes, a ∈ attributes := fun _ h => h
      cases hpayload : attributeCanonical? "payload" attributes with
      | some r => exact closed_attributeCanonical? attributes "payload" attributes hall r hpayload
      | none =>
        cases hbody : attributeCanonical? "body" attributes with
        | some r => exact closed_attributeCanonical? attributes "body" attributes hall r hbody
        | none => exact .inl rfl
  | .bool b => closed_nestedCanonical (.bool b)
  | .int n => closed_nestedCanonical (.int n)
  | .float x => closed_nestedCanonical (.float x)
  | .array items => closed_nestedCanonical (.array items)
  | .object members => closed_nestedCanonical (.object members)
  | .tuple items => closed_nestedCanonical (.tuple items)
  | .set items => closed_nestedCanonical (.set items)
  | .moment m => closed_nestedCanonical (.moment m)

theorem closed_attributeCanonical? (all : List (String × Option Value)) (name : String) :
    ∀ (attributes : List (String × Option Value)), (∀ a ∈ attributes, a ∈ all) →
      ∀ r, attributeCanonical? name attributes = some r → (Value.record all).Closed r
  | [], _, _, h => by cases h
  | (n, none) :: rest, hall, r, h => by
    rw [attributeCanonical?] at h
    split at h
    · next hn =>
      cases h
      subst hn
      exact ⟨all, .self _, hall _ List.mem_cons_self⟩
    · exact closed_attributeCanonical? all name rest (List.forall_mem_cons.1 hall).2 r h
  | (n, some v) :: rest, hall, r, h => by
    rw [attributeCanonical?] at h
    split at h
    · split at h
      · cases h
      · cases h
        have hv : v ∈ (Value.record all).carried :=
          List.mem_filterMap.2 ⟨(n, some v), hall _ List.mem_cons_self, rfl⟩
        exact (closed_toCanonical v).inner hv
    · exact closed_attributeCanonical? all name rest (List.forall_mem_cons.1 hall).2 r h

end

theorem toCanonical_of_isNested {v : Value} (h : v.isNested = true) :
    v.toCanonical = orMissing v.nestedCanonical := by
  cases v with
  | array | tuple | object => rfl
  | _ => cases h

/-- A canonical value is its own canonical form, unless there is a text to read or a null that is
nothing. -/
theorem toCanonical_of_isCanonical {c : Value} (h : c.IsCanonical)
    (hstring : c.kind? ≠ some .string) (hnull : c.kind? ≠ some .null) : c.toCanonical = .ok c := by
  have hnested : orMissing c.nestedCanonical = .ok c := by
    rw [nestedCanonical_of_isCanonical h]; rfl
  cases c with
  | array | object => rw [toCanonical_of_isNested rfl, hnested]
  | bool | int | float => rfl
  | string => exact absurd rfl hstring
  | null => exact absurd rfl hnull
  | _ => cases h _ (.self _)

end Value

end JsonExpect
