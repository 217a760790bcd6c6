import JsonExpect.Proofs.Value.Entries

/-!
# Walks over documents

A walk comes to a value, then to all inside it, members and items in the order in which they stand,
and leaves it once it has been to all of these. So it comes to the locations of a document in
pre-order (`filterMap_entered?_visits`), to each of them once, and leaves each once, with just what
lies below it in between (`IsDocument.brackets`).
-/

namespace JsonExpect

/-- A step of a walk: it comes to a location, or has been to all that lies below it. -/
inductive Visit where
  | enter (l : Location)
  | leave (l : Location)
deriving DecidableEq, Repr

namespace Visit

def location : Visit → Location
  | .enter l => l
  | .leave l => l

/-- The location that a step comes to, if it comes to one. -/
def entered? : Visit → Option Location
  | .enter l => some l
  | .leave _ => none

/-- A step inside the value of a key, as a step in the whole. -/
def below (k : Key) : Visit → Visit
  | .enter l => .enter (k :: l)
  | .leave l => .leave (k :: l)

@[simp] theorem location_below (k : Key) (x : Visit) : (x.below k).location = k :: x.location := by
  cases x <;> rfl

/-- A location is come to once and left once, with just what lies below it in between. -/
def Brackets (l : Location) (walk : List Visit) : Prop :=
  ∃ before inner after, walk = before ++ .enter l :: inner ++ .leave l :: after ∧
    (∀ x ∈ inner, l <+: x.location ∧ x.location ≠ l) ∧
      ∀ x ∈ before ++ after, ¬ l <+: x.location

theorem Brackets.append {l : Location} {walk : List Visit} (h : Brackets l walk)
    (us ws : List Visit) (hus : ∀ x ∈ us, ¬ l <+: x.location) (hws : ∀ x ∈ ws, ¬ l <+: x.location) :
    Brackets l (us ++ walk ++ ws) := by
  obtain ⟨before, inner, after, rfl, hinner, houter⟩ := h
  refine ⟨us ++ before, inner, after ++ ws, by simp, hinner, fun x hx => ?_⟩
  simp only [List.mem_append] at hx houter
  rcases hx with (hx | hx) | hx | hx
  · exact hus x hx
  · exact houter x (.inl hx)
  · exact houter x (.inr hx)
  · exact hws x hx

theorem Brackets.below {l : Location} {walk : List Visit} (h : Brackets l walk) (k : Key) :
    Brackets (k :: l) (walk.map (·.below k)) := by
  obtain ⟨before, inner, after, rfl, hinner, houter⟩ := h
  refine ⟨before.map (·.below k), inner.map (·.below k), after.map (·.below k), ?_, ?_, ?_⟩
  · simp [Visit.below]
  · intro x hx
    obtain ⟨y, hy, rfl⟩ := List.mem_map.1 hx
    obtain ⟨hfront, hne⟩ := hinner y hy
    rw [location_below]
    exact ⟨List.cons_prefix_cons.2 ⟨rfl, hfront⟩, fun h => hne (List.cons.inj h).2⟩
  · intro x hx hfront
    rw [← List.map_append] at hx
    obtain ⟨y, hy, rfl⟩ := List.mem_map.1 hx
    rw [location_below] at hfront
    exact houter y hy (List.cons_prefix_cons.1 hfront).2

end Visit

namespace Value

mutual

/-- The walk over a value and all inside it. -/
def visits : Value → List Visit
  | .array items => .enter [] :: itemVisits 0 items ++ [.leave []]
  | .object members => .enter [] :: memberVisits members ++ [.leave []]
  | _ => [.enter [], .leave []]

/-- The walk over items, the first of which stands at `index`. -/
def itemVisits (index : Nat) : List Value → List Visit
  | [] => []
  | v :: vs => (visits v).map (·.below (.int index)) ++ itemVisits (index + 1) vs

/-- The walk over members. -/
def memberVisits : List (Key × Value) → List Visit
  | [] => []
  | (k, v) :: ms => (visits v).map (·.below k) ++ memberVisits ms

end

/-! ## The steps of a walk, entry by entry -/

theorem visits_eq (v : Value) :
    v.visits =
      .enter [] :: (v.entries.flatMap fun e => e.2.visits.map (·.below e.1)) ++ [.leave []] := by
  cases v with
  | array items =>
    rw [visits, eq_flatMap_entries_of_items (f := itemVisits)
      (g := fun e => e.2.visits.map (·.below e.1)) (fun _ => rfl) fun _ _ _ => rfl]
  | object members =>
    rw [visits, eq_flatMap_entries_of_members (f := memberVisits) rfl fun _ _ => rfl]
  | _ => rfl

theorem locations_eq (v : Value) :
    v.locations = [] :: v.entries.flatMap fun e => e.2.locations.map (e.1 :: ·) := by
  cases v with
  | array items =>
    rw [locations, eq_flatMap_entries_of_items (f := itemLocations)
      (g := fun e => e.2.locations.map (e.1 :: ·)) (fun _ => rfl) fun _ _ _ => rfl]
  | object members =>
    rw [locations, eq_flatMap_entries_of_members (f := memberLocations) rfl fun _ _ => rfl]
  | _ => rfl

/-- The way to a location of a document is made of names and indices. -/
theorem IsDocument.writable {v : Value} (h : v.IsDocument) {l : Location} (hl : l ∈ v.locations) :
    ∀ k ∈ l, k.isWritable = true := by
  refine h.entries_induction (P := fun v => ∀ l ∈ v.locations, ∀ k ∈ l, k.isWritable = true)
    (fun v hv ih l hl => ?_) l hl
  rw [locations_eq] at hl
  rcases List.mem_cons.1 hl with rfl | hl
  · exact List.forall_mem_nil _
  · obtain ⟨e, he, hl⟩ := List.mem_flatMap.1 hl
    obtain ⟨l', hl', rfl⟩ := List.mem_map.1 hl
    refine List.forall_mem_cons.2 ⟨?_, ih e he l' hl'⟩
    cases hv with
    | array _ =>
      obtain ⟨i, _, rfl⟩ := List.mem_map.1 he
      rfl
    | object strings _ _ =>
      obtain ⟨s, hs⟩ := strings e he
      rw [hs]; rfl
    | _ => cases he

/-! ## The order of a walk -/

variable {v : Value}

/-- Below the first step a walk is at some key. -/
theorem location_ne_nil_of_mem {x : Visit}
    (h : x ∈ v.entries.flatMap fun e => e.2.visits.map (·.below e.1)) :
    ∃ e ∈ v.entries, ∃ l, x.location = e.1 :: l := by
  obtain ⟨e, he, hx⟩ := List.mem_flatMap.1 h
  obtain ⟨y, _, rfl⟩ := List.mem_map.1 hx
  exact ⟨e, he, y.location, y.location_below e.1⟩

/-- The first step of a walk comes to the value itself, and no other does. -/
theorem exists_visits_eq_cons (v : Value) :
    ∃ rest, v.visits = .enter [] :: rest ∧ ∀ x ∈ rest, x ≠ .enter [] := by
  refine ⟨_, v.visits_eq, fun x hx => ?_⟩
  rcases List.mem_append.1 hx with hx | hx
  · obtain ⟨e, _, l, hl⟩ := location_ne_nil_of_mem hx
    rintro rfl
    cases hl
  · rw [List.mem_singleton.1 hx]
    exact Visit.noConfusion

/-- A walk comes to the locations of a document in pre-order. -/
theorem filterMap_entered?_visits (h : v.IsDocument) :
    v.visits.filterMap Visit.entered? = v.locations := by
  refine h.entries_induction (P := fun v => v.visits.filterMap Visit.entered? = v.locations)
    fun v _ ih => ?_
  have hentry : ∀ e ∈ v.entries,
      (e.2.visits.map (·.below e.1)).filterMap Visit.entered? = e.2.locations.map (e.1 :: ·) := by
    intro e he
    rw [← ih e he, List.filterMap_map, List.map_filterMap]
    refine List.filterMap_congr fun x _ => ?_
    cases x <;> rfl
  have hfirst : Visit.entered? (.enter []) = some [] := rfl
  have hlast : [Visit.leave []].filterMap Visit.entered? = [] := rfl
  rw [visits_eq, locations_eq, List.filterMap_append, List.filterMap_cons_some hfirst, hlast,
    List.filterMap_flatMap, List.flatMap_congr hentry, List.append_nil]

/-- A walk comes to and leaves what is a location of the document, and nothing else. -/
theorem mem_visits_iff (h : v.IsDocument) {x : Visit} :
    x ∈ v.visits ↔ x.location ∈ v.locations := by
  refine h.entries_induction (P := fun v => ∀ x : Visit, x ∈ v.visits ↔ x.location ∈ v.locations)
    (fun v _ ih x => ?_) x
  rw [visits_eq, locations_eq]
  constructor
  · intro hx
    simp only [List.cons_append, List.mem_cons, List.mem_append, List.mem_flatMap] at hx
    rcases hx with rfl | ⟨e, he, hx⟩ | rfl | hx
    · exact List.mem_cons_self
    · obtain ⟨y, hy, rfl⟩ := List.mem_map.1 hx
      refine List.mem_cons_of_mem _ (List.mem_flatMap.2 ⟨e, he, ?_⟩)
      rw [Visit.location_below]
      exact List.mem_map_of_mem ((ih e he y).1 hy)
    · exact List.mem_cons_self
    · cases hx
  · intro hx
    rcases List.mem_cons.1 hx with hx | hx
    · cases x with
      | enter l => obtain rfl : l = [] := hx; simp
      | leave l => obtain rfl : l = [] := hx; simp
    · obtain ⟨e, he, hx⟩ := List.mem_flatMap.1 hx
      obtain ⟨l, hl, heq⟩ := List.mem_map.1 hx
      have hmem : ∀ y : Visit, y.location = l → x = y.below e.1 → x ∈ Visit.enter [] ::
          (v.entries.flatMap fun e => e.2.visits.map (·.below e.1)) ++ [.leave []] := by
        rintro y rfl rfl
        refine List.mem_append_left _ (List.mem_cons_of_mem _ (List.mem_flatMap.2 ⟨e, he, ?_⟩))
        exact List.mem_map_of_mem ((ih e he y).2 hl)
      cases x with
      | enter _ => exact hmem (.enter l) rfl (congrArg Visit.enter heq.symm)
      | leave _ => exact hmem (.leave l) rfl (congrArg Visit.leave heq.symm)

/-- Each location of a document is come to once and left once, with just what lies below it in
between. -/
theorem IsDocument.brackets (h : v.IsDocument) {l : Location} (hl : l ∈ v.locations) :
    Visit.Brackets l v.visits := by
  refine h.entries_induction (P := fun v => ∀ l ∈ v.locations, Visit.Brackets l v.visits)
    (fun v hv ih l hl => ?_) l hl
  rw [locations_eq] at hl
  rw [visits_eq]
  rcases List.mem_cons.1 hl with rfl | hl
  · refine ⟨[], _, [], rfl, fun x hx => ⟨List.nil_prefix, ?_⟩, by simp⟩
    obtain ⟨e, _, l, heq⟩ := location_ne_nil_of_mem hx
    rw [heq]
    exact List.cons_ne_nil e.1 l
  · obtain ⟨e, he, hl⟩ := List.mem_flatMap.1 hl
    obtain ⟨l', hl', rfl⟩ := List.mem_map.1 hl
    obtain ⟨before, after, hsplit⟩ := List.append_of_mem he
    have hkeys := hv.nodup_keys
    rw [hsplit, List.map_append, List.map_cons, List.nodup_middle, ← List.map_append] at hkeys
    -- what is below another key is not below this one
    have hother : ∀ es, es ⊆ before ++ after →
        ∀ x ∈ es.flatMap fun e => e.2.visits.map (·.below e.1), ¬ e.1 :: l' <+: x.location := by
      intro es hes x hx hfront
      obtain ⟨d, hd, hx⟩ := List.mem_flatMap.1 hx
      obtain ⟨y, _, rfl⟩ := List.mem_map.1 hx
      rw [Visit.location_below, List.cons_prefix_cons] at hfront
      exact (List.nodup_cons.1 hkeys).1 (hfront.1 ▸ List.mem_map_of_mem (hes hd))
    have hnil : ∀ x : Visit, x.location = [] → ¬ e.1 :: l' <+: x.location := by
      rintro x hx hfront
      rw [hx] at hfront
      exact absurd hfront.length_le (by simp)
    have hbelow := ((ih e he l' hl').below e.1).append
      (.enter [] :: before.flatMap fun e => e.2.visits.map (·.below e.1))
      ((after.flatMap fun e => e.2.visits.map (·.below e.1)) ++ [.leave []])
      (List.forall_mem_cons.2 ⟨hnil _ rfl, hother before (List.subset_append_left ..)⟩)
      (List.forall_mem_append.2
        ⟨hother after (List.subset_append_right ..), List.forall_mem_singleton.2 (hnil _ rfl)⟩)
    rw [hsplit]
    simpa using hbelow

end Value

end JsonExpect
