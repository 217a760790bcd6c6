import JsonExpect.Proofs.Value.Document
import JsonExpect.Proofs.Yields
import JsonExpect.Selector.Library

/-!
# What is relied on of a library of selectors

A library serves a text and a document if it compiles or refuses the text, evaluates without raising
anything, and picks only documents from the document (`SelectorLibrary.Serves`).

The selectors of this library do so wherever evaluating them raises nothing
(`Selector.serves_library`). A selector goes from spot to spot, inwards and outwards. The value of a
spot and all values around it stay documents on the way: parts of the one that is searched,
characters of its texts, arrays of one of its values, and names (`Selector.yields_find`).
-/

namespace JsonExpect

/-! ## The laws -/

namespace SelectorLibrary

/-- A match of a text in a value. -/
def Matches (lib : SelectorLibrary) (text : String) (v : Value) (m : lib.Match) : Prop :=
  ∃ s found, lib.compile text = .ok s ∧ lib.find s v = .ok found ∧ m ∈ found

/-- What is relied on of a library where a text picks from a value. -/
structure Serves (lib : SelectorLibrary) (text : String) (v : Value) : Prop where
  compiles : ∀ message, lib.compile text ≠ .error (.raised message)
  evaluates : ∀ s, lib.compile text = .ok s → ∃ found, lib.find s v = .ok found
  reads : ∀ m, lib.Matches text v m → ∃ w, lib.value m = .ok w
  picks : ∀ m w, lib.Matches text v m → lib.value m = .ok w → w.IsDocument

end SelectorLibrary

/-! ## Spots in documents -/

/-- A spot whose value, if it has one, is a document among documents. -/
structure Spot.Sound (s : Spot) : Prop where
  value : Yields Value.IsDocument s.value
  around : ∀ p ∈ s.around, p.1.IsDocument

/-- The same for all spots that are there. -/
def Spot.AllSound (found : List (Option Spot)) : Prop := ∀ t ∈ found, ∀ s ∈ t, s.Sound

namespace Spot

theorem Sound.orNull {s : Option Spot} (h : ∀ t ∈ s, t.Sound) : (orNull s).Sound := by
  cases s with
  | some t => exact h t rfl
  | none => exact ⟨yields_ok .null, List.forall_mem_nil _⟩

theorem Sound.holder? {s : Spot} (h : s.Sound) : ∀ t ∈ s.holder?, t.Sound := by
  unfold Spot.holder?
  split
  · nofun
  · next hs =>
    have haround := h.around
    rw [hs] at haround
    obtain ⟨hv, hrest⟩ := List.forall_mem_cons.1 haround
    rintro _ ⟨⟩
    exact ⟨yields_ok hv, hrest⟩

theorem Sound.root {s : Spot} (h : s.Sound) : s.root.Sound := by
  unfold Spot.root
  split
  · next v _ hlast =>
    exact ⟨yields_ok (h.around _ (List.mem_of_getLast? hlast)), List.forall_mem_nil _⟩
  · exact ⟨h.value, List.forall_mem_nil _⟩

/-- A value inside another one, with this one around it. -/
theorem sound_inside {v w : Value} {step step' : Step} {around : List (Value × Step)}
    (hv : v.IsDocument) (hw : w.IsDocument) (haround : ∀ p ∈ around, p.1.IsDocument) :
    Sound ⟨.ok w, step', (v, step) :: around⟩ :=
  ⟨yields_ok hw, List.forall_mem_cons.2 ⟨hv, haround⟩⟩

theorem sound_below {v : Value} (h : v.IsDocument) (step : Step) (around : List (Value × Step))
    (haround : ∀ p ∈ around, p.1.IsDocument) : ∀ s ∈ below step around v, s.Sound := by
  induction h generalizing step around with
  | @array items all ih =>
    have haround' : ∀ p ∈ (Value.array items, step) :: around, p.1.IsDocument :=
      List.forall_mem_cons.2 ⟨.array all, haround⟩
    have hitems : ∀ (vs : List Value) (position : Int), (∀ v ∈ vs, v ∈ items) →
        ∀ s ∈ belowItems position ((.array items, step) :: around) vs, s.Sound := by
      intro vs
      induction vs with
      | nil => exact fun _ _ => List.forall_mem_nil _
      | cons v vs ihvs =>
        intro position hvs
        obtain ⟨hv, hvs⟩ := List.forall_mem_cons.1 hvs
        exact List.forall_mem_append.2 ⟨ih v hv _ _ haround', ihvs _ hvs⟩
    exact List.forall_mem_cons.2
      ⟨⟨yields_ok (.array all), haround⟩, hitems items 0 fun _ => id⟩
  | @object members strings distinct all ih =>
    have hobject := Value.IsDocument.object strings distinct all
    have haround' : ∀ p ∈ (Value.object members, step) :: around, p.1.IsDocument :=
      List.forall_mem_cons.2 ⟨hobject, haround⟩
    have hmembers : ∀ ms : List (Key × Value), (∀ m ∈ ms, m ∈ members) →
        ∀ s ∈ belowMembers ((.object members, step) :: around) ms, s.Sound := by
      intro ms
      induction ms with
      | nil => exact fun _ => List.forall_mem_nil _
      | cons m ms ihms =>
        intro hms
        obtain ⟨hm, hms⟩ := List.forall_mem_cons.1 hms
        exact List.forall_mem_append.2 ⟨ih m hm _ _ haround', ihms hms⟩
    exact List.forall_mem_cons.2 ⟨⟨yields_ok hobject, haround⟩, hmembers members fun _ => id⟩
  | null => exact List.forall_mem_singleton.2 ⟨yields_ok .null, haround⟩
  | bool b => exact List.forall_mem_singleton.2 ⟨yields_ok (.bool b), haround⟩
  | int n => exact List.forall_mem_singleton.2 ⟨yields_ok (.int n), haround⟩
  | float x => exact List.forall_mem_singleton.2 ⟨yields_ok (.float x), haround⟩
  | string s => exact List.forall_mem_singleton.2 ⟨yields_ok (.string s), haround⟩

theorem Sound.all {s : Spot} (h : s.Sound) : Yields (fun found => ∀ t ∈ found, t.Sound) s.all :=
  h.value.map fun _ hv => sound_below hv _ _ h.around

/-- The name of an object is a text. -/
theorem sound_named {places : List (Value × Step)} (h : ∀ p ∈ places, p.1.IsDocument) :
    (named places).Sound := by
  refine ⟨?_, h⟩
  unfold named
  simp only
  split
  · exact yields_ok (.string _)
  · exact yields_error _

end Spot

namespace Value

variable {v : Value}

theorem isDocument_of_findMember? {k : Key} {members : List (Key × Value)} {w : Value}
    (h : (Value.object members).IsDocument) (hw : findMember? k members = some w) :
    w.IsDocument := by
  obtain ⟨m, hm, rfl⟩ := exists_mem_of_findMember? hw
  cases h with
  | object _ _ all => exact all m hm

/-- Items, and the characters of a text, which are texts. -/
theorem IsDocument.sequence? (h : v.IsDocument) {vs : List Value} (hvs : v.sequence? = some vs) :
    ∀ w ∈ vs, w.IsDocument := by
  cases h with
  | array all => cases hvs; exact all
  | string s =>
    cases hvs
    exact List.forall_mem_map.2 fun c _ => .string _
  | _ => cases hvs

theorem IsDocument.element? (h : v.IsDocument) (position : Int) :
    Yields (fun w? => ∀ w ∈ w?, w.IsDocument) (v.element? position) := by
  unfold Value.element?
  split
  · exact yields_ok nofun
  · split
    · split
      · exact yields_ok nofun
      · split
        · next hw => exact yields_ok (by rintro _ ⟨⟩; exact isDocument_of_findMember? h hw)
        · exact yields_error _
    · split
      · exact yields_error _
      · next vs hvs =>
        have hat : ∀ i : Nat, ∀ w ∈ vs[i]?, w.IsDocument := fun _ w hw =>
          h.sequence? hvs w (List.mem_of_getElem? hw)
        split
        · exact yields_ok (hat _)
        · split
          · exact yields_error _
          · split
            · exact yields_error _
            · exact yields_ok (hat _)

theorem IsDocument.sliced (h : v.IsDocument) :
    Yields (fun s => s.1.IsDocument ∧ ∀ w ∈ s.2, w.IsDocument) v.sliced := by
  have hone : (Value.array [v]).IsDocument ∧ ∀ w ∈ [v], w.IsDocument :=
    ⟨.array (List.forall_mem_singleton.2 h), List.forall_mem_singleton.2 h⟩
  cases h with
  | null => exact yields_ok ⟨.null, List.forall_mem_nil _⟩
  | array all => exact yields_ok ⟨.array all, all⟩
  | _ => exact yields_ok hone

end Value

namespace Selector

variable {s : Spot}

theorem yields_findElements (h : s.Sound) (positions : List Int) :
    Yields (fun found => ∀ t ∈ found, t.Sound) (findElements positions s) := by
  refine h.value.bind fun v hv => Yields.bind
    (P := fun found : List (Option Spot) => Spot.AllSound found) (yields_mapM fun position _ => ?_)
    fun found hfound => yields_ok fun t ht => ?_
  · refine (hv.element? position).bind fun w? hw => yields_ok fun t ht => ?_
    obtain ⟨w, rfl, rfl⟩ := Option.map_eq_some_iff.1 ht
    exact Spot.sound_inside hv (hw w rfl) h.around
  · obtain ⟨u, hu, hut⟩ := List.mem_filterMap.1 ht
    exact hfound u hu t hut

theorem yields_findSlice (h : s.Sound) (start stop step : Option Int) :
    Yields (fun found => ∀ t ∈ found, t.Sound) (findSlice start stop step s) := by
  unfold findSlice
  refine h.value.bind fun v hv => hv.sliced.bind fun found hfound => ?_
  obtain ⟨w, parts⟩ := found
  obtain ⟨hw, hparts⟩ := hfound
  simp only
  split
  · exact yields_ok (List.forall_mem_nil _)
  · split
    · exact yields_error _
    · refine yields_ok fun t ht => ?_
      obtain ⟨i, _, hi⟩ := List.mem_filterMap.1 ht
      obtain ⟨u, hu, rfl⟩ := Option.map_eq_some_iff.1 hi
      exact Spot.sound_inside hw (hparts u (List.mem_of_getElem? hu)) h.around

theorem sound_memberSpot {holder : Value × Step} {around : List (Value × Step)} {m : Key × Value}
    (hholder : holder.1.IsDocument) (haround : ∀ p ∈ around, p.1.IsDocument)
    (hm : m.2.IsDocument) : (memberSpot holder around m).Sound := by
  unfold memberSpot
  split
  · exact Spot.sound_named (List.forall_mem_cons.2 ⟨hholder, haround⟩)
  · exact Spot.sound_inside hholder hm haround

theorem yields_findMembers (h : s.Sound) (names : List String) :
    Yields (fun found => ∀ t ∈ found, t.Sound) (findMembers names s) := by
  unfold findMembers
  split
  · refine h.value.map fun v hv => ?_
    split
    · refine List.forall_mem_map.2 fun m hm => sound_memberSpot hv h.around ?_
      cases hv with
      | object _ _ all => exact all m hm
    · exact List.forall_mem_nil _
  · split
    · next entries hs =>
      have hv : (Value.object entries).IsDocument := h.value _ hs
      refine yields_ok fun t ht => ?_
      obtain ⟨name, _, hname⟩ := List.mem_filterMap.1 ht
      obtain ⟨w, hw, rfl⟩ := Option.map_eq_some_iff.1 hname
      exact sound_memberSpot hv h.around (Value.isDocument_of_findMember? hv hw)
    · exact yields_ok (List.forall_mem_nil _)

theorem allSound_map_some {found : List Spot} (h : ∀ t ∈ found, t.Sound) :
    Spot.AllSound (found.map some) := by
  refine List.forall_mem_map.2 fun t ht => ?_
  rintro _ ⟨⟩
  exact h t ht

theorem allSound_flatten {founds : List (List (Option Spot))}
    (h : ∀ found ∈ founds, Spot.AllSound found) : Spot.AllSound founds.flatten := by
  intro t ht
  obtain ⟨found, hfound, ht⟩ := List.mem_flatten.1 ht
  exact h found hfound t ht

/-- Searched from a spot in documents, a selector picks spots in documents. -/
theorem yields_find (selector : Selector) {s : Option Spot} (h : ∀ t ∈ s, t.Sound) :
    Yields Spot.AllSound (selector.find s) := by
  have hs := Spot.Sound.orNull h
  induction selector generalizing s with
  | root => exact yields_ok (allSound_map_some (List.forall_mem_singleton.2 hs.root))
  | self => exact yields_ok (allSound_map_some (List.forall_mem_singleton.2 hs))
  | holder => exact yields_ok (List.forall_mem_singleton.2 hs.holder?)
  | members names => exact (yields_findMembers hs names).map fun _ => allSound_map_some
  | elements positions => exact (yields_findElements hs positions).map fun _ => allSound_map_some
  | slice start stop step =>
    exact (yields_findSlice hs start stop step).map fun _ => allSound_map_some
  | next first second ihfirst ihsecond =>
    refine (ihfirst h hs).bind fun found hfound => Yields.bind
      (yields_mapM fun t ht => ?_) fun _ hall => yields_ok (allSound_flatten hall)
    have ht := hfound t (List.mem_of_mem_filter ht)
    exact ihsecond ht (Spot.Sound.orNull ht)
  | descent first second ihfirst ihsecond =>
    refine (ihfirst h hs).bind fun found hfound => Yields.bind
      (yields_mapM fun t ht => ?_) fun _ hall => yields_ok (allSound_flatten hall)
    cases t with
    | none => exact Yields.bind (P := fun _ => True) (fun _ _ => trivial) fun _ _ => yields_error _
    | some t =>
      refine (hfound _ ht t rfl).all.bind fun inside hinside => Yields.bind
        (yields_mapM fun u hu => ?_) fun _ hall => yields_ok (allSound_flatten hall)
      have hu : ∀ u' ∈ some u, u'.Sound := by
        rintro _ ⟨⟩
        exact hinside u hu
      exact ihsecond hu (Spot.Sound.orNull hu)
  | union first second ihfirst ihsecond =>
    exact (ihfirst h hs).bind fun _ hfound => (ihsecond h hs).bind fun _ hfound' =>
      yields_ok (List.forall_mem_append.2 ⟨hfound, hfound'⟩)
  | both => exact yields_error _
  | filter present first second ihfirst ihsecond =>
    exact (ihfirst h hs).bind fun _ hfound => yields_filterM hfound

/-- What a selector picks from a document has a document as its value. -/
theorem isDocument_of_find {selector : Selector} {v w : Value} (h : v.IsDocument)
    {found : List (Option Spot)} (hfound : selector.find (some { value := .ok v }) = .ok found)
    {m : Option Spot} (hm : m ∈ found) (hw : matchValue m = .ok w) : w.IsDocument := by
  have hspot : ∀ t ∈ some ({ value := .ok v } : Spot), t.Sound := by
    rintro _ ⟨⟩
    exact ⟨yields_ok h, List.forall_mem_nil _⟩
  have hsound := yields_find selector hspot found hfound m hm
  cases m with
  | none => cases hw
  | some s => exact (hsound s rfl).value w hw

/-- The selectors serve a text that can be read wherever evaluating it raises nothing. -/
theorem serves_library {text : String} {s : Selector} {v : Value} (h : v.IsDocument)
    (hs : parse text = .ok s) {found : List (Option Spot)}
    (hfound : s.find (some { value := .ok v }) = .ok found)
    (hvalues : ∀ m ∈ found, ∃ w, matchValue m = .ok w) : library.Serves text v := by
  have hcompile : library.compile text = .ok s := by simp [library, hs, Except.mapError]
  have hfind : library.find s v = .ok found := by simp [library, hfound, Except.mapError]
  have hmem : ∀ m, library.Matches text v m → m ∈ found := by
    rintro m ⟨s', found', hs', hfound', hm⟩
    obtain rfl := Except.ok.inj (hcompile.symm.trans hs')
    obtain rfl := Except.ok.inj (hfind.symm.trans hfound')
    exact hm
  constructor
  · intro message hmessage
    rw [hcompile] at hmessage
    cases hmessage
  · intro s' hs'
    obtain rfl := Except.ok.inj (hcompile.symm.trans hs')
    exact ⟨found, hfind⟩
  · intro m hm
    obtain ⟨w, hw⟩ := hvalues m (hmem m hm)
    exact ⟨w, by simp [library, hw, Except.mapError]⟩
  · intro m w hm hw
    obtain ⟨w', hw'⟩ := hvalues m (hmem m hm)
    obtain rfl : w' = w := by simpa [library, hw', Except.mapError] using hw
    exact isDocument_of_find h hfound (hmem m hm) hw'

end Selector

end JsonExpect
