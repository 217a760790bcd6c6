import JsonExpect.Proofs.Path.Segment

/-!
# Paths that are read back

A written path is a sequence of segments, each of a component and the array components after it,
with dots in between. A segment that ends in a backslash swallows the dot after it, so fewer
segments than keys are left and some key is lost: each segment yields at most one. Where every dot
cuts, the keys of the result stand at the fronts of the segments, and the path is read back exactly
if each segment is. `parse_format` puts this as a condition on every key and its successor.
-/

namespace JsonExpect.Path

/-! ## Cutting a written path -/

/-- No dot of the text cuts it, and the text leaves the reader escaped exactly if it ends in a
backslash. -/
def Unbroken (text : List Char) : Prop :=
  ∀ escaped rest, segments escaped (text ++ rest) =
    (segments (text.foldl (fun _ c => decide (c = '\\')) escaped) rest).modifyHead (text ++ ·)

theorem unbroken_nil : Unbroken [] := by
  intro escaped rest
  change segments escaped rest = (segments escaped rest).modifyHead fun s => s
  cases segments escaped rest <;> rfl

theorem Unbroken.append {text text' : List Char} (h : Unbroken text) (h' : Unbroken text') :
    Unbroken (text ++ text') := by
  intro escaped rest
  rw [List.append_assoc, h, h', List.modifyHead_modifyHead, List.foldl_append]
  congr 1
  funext s
  exact (List.append_assoc text text' s).symm

theorem unbroken_singleton {c : Char} (h : c ≠ '.') : Unbroken [c] := by
  intro escaped rest
  by_cases hc : c = '\\'
  · subst hc
    simp [segments]
  · simp [segments, hc, h]

theorem unbroken_escaped (c : Char) : Unbroken ['\\', c] := by
  intro escaped rest
  by_cases hc : c = '\\'
  · subst hc
    simp [segments, List.modifyHead_modifyHead, Function.comp_def]
  · simp [segments, hc, List.modifyHead_modifyHead, Function.comp_def]

theorem unbroken_of_not_mem {text : List Char} (h : '.' ∉ text) : Unbroken text := by
  induction text with
  | nil => exact unbroken_nil
  | cons c text ih =>
    rw [List.mem_cons, not_or] at h
    exact (unbroken_singleton fun hc => h.1 hc.symm).append (ih h.2)

theorem unbroken_escapeMarks (name : List Char) : Unbroken (escapeMarks name) := by
  rw [escapeMarks_eq]
  induction name with
  | nil => exact unbroken_nil
  | cons c name ih =>
    rcases Bool.eq_false_or_eq_true (isMark c) with hc | hc
    · rw [escapeBy_cons_of_special hc]
      exact (unbroken_escaped c).append ih
    · rw [escapeBy_cons_of_plain hc]
      refine (unbroken_singleton ?_).append ih
      rintro rfl
      exact absurd hc (by decide)

theorem unbroken_chars (c : Component) : Unbroken c.chars := by
  by_cases hc : c.isArrayAccess = true
  · refine unbroken_of_not_mem ?_
    rw [chars_of_isArrayAccess hc]
    have hdot : '.' ∉ c.content := not_mem_content (by decide) (by decide)
    simp [hdot]
  cases c with
  | index | anyIndex => exact absurd rfl hc
  | anyKey => exact unbroken_singleton (by decide)
  | key name =>
    rw [Component.chars, escapeKey]
    split
    · exact unbroken_escaped '*'
    · exact unbroken_escapeMarks name.toList

theorem unbroken_bracketChars {cs : List Component} (hcs : ∀ d ∈ cs, d.isArrayAccess = true) :
    Unbroken (bracketChars cs) :=
  unbroken_of_not_mem (not_mem_bracketChars hcs (by decide) (by decide) (by decide))

theorem Unbroken.segments_append {text : List Char} (h : Unbroken text) (rest : List Char) :
    segments false (text ++ rest) =
      (segments (decide (text.getLast? = some '\\')) rest).modifyHead (text ++ ·) := by
  rw [h]
  rcases List.eq_nil_or_concat text with rfl | ⟨text, c, rfl⟩
  · rfl
  · simp

/-- A text that ends otherwise is cut at the dot after it. -/
theorem Unbroken.segments_cut {text : List Char} (h : Unbroken text)
    (hlast : text.getLast? ≠ some '\\') (rest : List Char) :
    segments false (text ++ '.' :: rest) = text :: segments false rest := by
  rw [h.segments_append, decide_eq_false hlast]
  simp [segments]

/-- A backslash at the end swallows the dot after it. -/
theorem Unbroken.length_segments_of_swallowed {text : List Char} (h : Unbroken text)
    (hlast : text.getLast? = some '\\') (rest : List Char) :
    (segments false (text ++ '.' :: rest)).length = (segments false rest).length := by
  rw [h.segments_append, decide_eq_true hlast, List.length_modifyHead]
  simp [segments]

theorem Unbroken.segments_eq {text : List Char} (h : Unbroken text) :
    segments false text = [text] := by
  rw [← List.append_nil text, h.segments_append, segments]
  rfl

/-! ## Written paths as segments -/

section Groups

variable {c k : Component} {cs ds rest : List Component}

theorem charsAfter_append (cs ds : List Component) :
    charsAfter (cs ++ ds) = charsAfter cs ++ charsAfter ds := by
  induction cs with
  | nil => rfl
  | cons c cs ih => rw [List.cons_append, charsAfter, charsAfter, ih, List.append_assoc]

theorem charsAfter_arrays (hcs : ∀ d ∈ cs, d.isArrayAccess = true) :
    charsAfter cs = bracketChars cs := by
  induction cs with
  | nil => rfl
  | cons c cs ih =>
    rw [List.forall_mem_cons] at hcs
    rw [charsAfter, if_pos hcs.1, ih hcs.2]
    rfl

theorem chars_cons_arrays (hcs : ∀ d ∈ cs, d.isArrayAccess = true) :
    chars (c :: cs) = c.chars ++ bracketChars cs := by
  rw [chars, charsAfter_arrays hcs]

theorem chars_append_key (hk : k.isArrayAccess = false) :
    chars (c :: (cs ++ k :: rest)) = chars (c :: cs) ++ '.' :: chars (k :: rest) := by
  rw [chars, charsAfter_append, charsAfter, if_neg (by simp [hk]), chars, chars]
  simp

/-- A path is one component with the array components after it, or such a segment before a shorter
path that starts with none. -/
theorem segmentInduction {motive : List Component → Prop}
    (single : ∀ c cs, (∀ d ∈ cs, d.isArrayAccess = true) → motive (c :: cs))
    (more : ∀ c cs k rest, (∀ d ∈ cs, d.isArrayAccess = true) → k.isArrayAccess = false →
      motive (k :: rest) → motive (c :: (cs ++ k :: rest))) :
    ∀ c cs, motive (c :: cs) := by
  have hsplit : ∀ rest c cs, (∀ d ∈ cs, d.isArrayAccess = true) → motive (c :: (cs ++ rest)) := by
    intro rest
    induction rest with
    | nil =>
      intro c cs hcs
      rw [List.append_nil]
      exact single c cs hcs
    | cons k rest ih =>
      intro c cs hcs
      rcases Bool.eq_false_or_eq_true k.isArrayAccess with hk | hk
      · rw [List.append_cons]
        refine ih c (cs ++ [k]) fun d hd => ?_
        rcases List.mem_append.1 hd with hd | hd
        · exact hcs d hd
        · exact List.mem_singleton.1 hd ▸ hk
      · exact more c cs k rest hcs hk (ih k [] (by simp))
  intro c cs
  exact hsplit cs c [] (by simp)

theorem unbroken_chars_cons (hcs : ∀ d ∈ cs, d.isArrayAccess = true) :
    Unbroken (chars (c :: cs)) := by
  rw [chars_cons_arrays hcs]
  exact (unbroken_chars c).append (unbroken_bracketChars hcs)

/-- The components that may stand at the front of a segment only. -/
def keyCount (cs : List Component) : Nat := cs.countP fun c => !c.isArrayAccess

theorem keyCount_append : keyCount (cs ++ ds) = keyCount cs + keyCount ds := List.countP_append

theorem keyCount_arrays (hcs : ∀ d ∈ cs, d.isArrayAccess = true) : keyCount cs = 0 :=
  List.countP_eq_zero.2 fun d hd => by simp [hcs d hd]

theorem keyCount_cons_key (hk : k.isArrayAccess = false) :
    keyCount (k :: rest) = keyCount rest + 1 :=
  List.countP_cons_of_pos (by simp [hk])

/-- A written path has a segment at most for its first component and for each key after it. -/
theorem length_segments_chars_le (c : Component) (cs : List Component) :
    (segments false (chars (c :: cs))).length ≤ keyCount cs + 1 := by
  refine segmentInduction (motive := fun cs =>
    (segments false (chars cs)).length ≤ keyCount cs.tail + 1) ?_ ?_ c cs
  · intro c cs hcs
    rw [(unbroken_chars_cons hcs).segments_eq]
    exact Nat.le_add_left 1 _
  · intro c cs k rest hcs hk hrest
    rw [List.tail_cons] at hrest ⊢
    have hcount : keyCount (cs ++ k :: rest) = keyCount rest + 1 := by
      rw [keyCount_append, keyCount_arrays hcs, keyCount_cons_key hk, Nat.zero_add]
    rw [chars_append_key hk, hcount]
    by_cases hlast : (chars (c :: cs)).getLast? = some '\\'
    · rw [(unbroken_chars_cons hcs).length_segments_of_swallowed hlast]
      omega
    · rw [(unbroken_chars_cons hcs).segments_cut hlast, List.length_cons]
      omega

end Groups

/-! ## What segments are read as -/

section Read

variable {contents : List (List Char)} {segment : List Char} {rest : List (List Char)}
  {cs ds : List Component}

theorem isArrayAccess_of_bracketComponent {content : List Char} {found : Option Component}
    (h : bracketComponent content = .ok found) : ∀ d ∈ found, d.isArrayAccess = true := by
  intro d hd
  rw [bracketComponent] at h
  split at h
  · obtain rfl := Except.ok.inj h
    cases hd
    rfl
  · split at h
    · split at h
      · cases h
      · obtain rfl := Except.ok.inj h
        cases hd
        rfl
    · obtain rfl := Except.ok.inj h
      cases hd

theorem isArrayAccess_of_bracketComponents (h : bracketComponents contents = .ok cs) :
    ∀ d ∈ cs, d.isArrayAccess = true := by
  induction contents generalizing cs with
  | nil =>
    obtain rfl := Except.ok.inj h
    simp
  | cons content contents ih =>
    rw [bracketComponents] at h
    split at h
    · cases h
    · next found hfound =>
      split at h
      · cases h
      · next ds hds =>
        obtain rfl := Except.ok.inj h
        intro d hd
        rcases List.mem_append.1 hd with hd | hd
        · exact isArrayAccess_of_bracketComponent hfound d (Option.mem_toList.1 hd)
        · exact ih hds d hd

/-- Only the first component of a segment may have no brackets. -/
theorem isArrayAccess_of_mem_tail (h : segmentComponents segment = .ok cs) :
    ∀ d ∈ cs.tail, d.isArrayAccess = true := by
  rw [segmentComponents] at h
  simp only at h
  split at h
  · cases h
  · next ds hds =>
    have harrays := isArrayAccess_of_bracketComponents hds
    obtain rfl := Except.ok.inj h
    split
    · exact fun d hd => harrays d (List.mem_of_mem_tail hd)
    · exact harrays

theorem segmentsComponents_cons_eq_ok :
    segmentsComponents (segment :: rest) = .ok ds ↔
      ∃ front back, segmentComponents segment = .ok front ∧
        segmentsComponents rest = .ok back ∧ ds = front ++ back := by
  rw [segmentsComponents]
  constructor
  · intro h
    split at h
    · cases h
    · next front hfront =>
      split at h
      · cases h
      · next back hback => exact ⟨front, back, hfront, hback, (Except.ok.inj h).symm⟩
  · rintro ⟨front, back, hfront, hback, rfl⟩
    simp only [hfront, hback]

theorem keyCount_segment_le (h : segmentComponents segment = .ok cs) : keyCount cs ≤ 1 := by
  cases cs with
  | nil => exact Nat.zero_le 1
  | cons c cs =>
    have htail : keyCount cs = 0 := keyCount_arrays (isArrayAccess_of_mem_tail h)
    rcases Bool.eq_false_or_eq_true c.isArrayAccess with hc | hc
    · have hall := keyCount_arrays (List.forall_mem_cons.2 ⟨hc, isArrayAccess_of_mem_tail h⟩)
      exact hall ▸ Nat.zero_le 1
    · rw [keyCount_cons_key hc, htail]

/-- Each segment yields at most one key. If all of them do, the first component is one. -/
theorem keyCount_le (h : segmentsComponents rest = .ok ds) :
    keyCount ds ≤ rest.length ∧
      (keyCount ds = rest.length → ∀ d ∈ ds.head?, d.isArrayAccess = false) := by
  induction rest generalizing ds with
  | nil =>
    obtain rfl := Except.ok.inj h
    exact ⟨Nat.le_refl 0, fun _ d hd => by cases hd⟩
  | cons segment rest ih =>
    obtain ⟨front, back, hfront, hback, rfl⟩ := segmentsComponents_cons_eq_ok.1 h
    have hone := keyCount_segment_le hfront
    have hmany := (ih hback).1
    rw [keyCount_append, List.length_cons]
    refine ⟨by omega, fun hcount d hd => ?_⟩
    have hfull : keyCount front = 1 := by omega
    cases front with
    | nil => exact absurd hfull (by decide)
    | cons c cs =>
      obtain rfl : c = d := Option.some.inj hd
      rcases Bool.eq_false_or_eq_true c.isArrayAccess with hc | hc
      · have hall : ∀ e ∈ c :: cs, e.isArrayAccess = true :=
          List.forall_mem_cons.2 ⟨hc, isArrayAccess_of_mem_tail hfront⟩
        have hnone := keyCount_arrays hall
        omega
      · exact hc

end Read

/-! ## The condition on a path -/

/-- Every key of the path is faithful to its name, given the component after it. -/
def Writable (cs : List Component) : Prop :=
  ∀ i name, cs[i]? = some (.key name) → Faithful name.toList cs[i + 1]?

section Writable

variable {c k : Component} {cs ds rest : List Component}

theorem writable_cons :
    Writable (c :: cs) ↔ (∀ name, c = .key name → Faithful name.toList cs.head?) ∧ Writable cs := by
  constructor
  · intro h
    refine ⟨?_, fun i name hi => h (i + 1) name hi⟩
    rintro name rfl
    have := h 0 name rfl
    rwa [List.getElem?_cons_succ, ← List.head?_eq_getElem?] at this
  · rintro ⟨hc, hcs⟩ i name hi
    cases i with
    | zero =>
      rw [List.getElem?_cons_succ, ← List.head?_eq_getElem?]
      exact hc name (Option.some.inj hi)
    | succ i => exact hcs i name hi

theorem writable_arrays_append (hcs : ∀ d ∈ cs, d.isArrayAccess = true) :
    Writable (cs ++ ds) ↔ Writable ds := by
  induction cs with
  | nil => rfl
  | cons c cs ih =>
    rw [List.forall_mem_cons] at hcs
    rw [List.cons_append, writable_cons, ih hcs.2, and_iff_right]
    rintro name rfl
    exact absurd hcs.1 (by simp [Component.isArrayAccess])

theorem writable_segment (hcs : ∀ d ∈ cs, d.isArrayAccess = true) :
    Writable (c :: cs) ↔ ∀ name, c = .key name → Faithful name.toList cs.head? := by
  have hnil : Writable [] := by
    intro i name hi
    simp at hi
  rw [writable_cons, and_iff_left]
  rw [← List.append_nil cs]
  exact (writable_arrays_append hcs).2 hnil

/-- A segment ends in a backslash exactly if it is a key alone whose name does. -/
theorem getLast?_chars_iff (hcs : ∀ d ∈ cs, d.isArrayAccess = true) :
    (chars (c :: cs)).getLast? = some '\\' ↔
      cs = [] ∧ ∃ name, c = .key name ∧ name.toList.getLast? = some '\\' := by
  rw [chars_cons_arrays hcs]
  rcases List.eq_nil_or_concat cs with rfl | ⟨cs, d, rfl⟩
  · rw [and_iff_right rfl, bracketChars, List.flatMap_nil, List.append_nil]
    cases c with
    | index | anyIndex =>
      rw [chars_of_isArrayAccess rfl, List.getLast?_concat]
      simp
    | anyKey => simp [Component.chars]
    | key name =>
      have hlast : (escapeKey name.toList).getLast? = name.toList.getLast? := by
        rw [escapeKey]
        split
        · next h => rw [h]; rfl
        · rw [escapeMarks_eq, getLast?_escapeBy]
      rw [Component.chars, hlast]
      constructor
      · exact fun h => ⟨name, rfl, h⟩
      · rintro ⟨_, ⟨⟩, h⟩
        exact h
  · have hd : d.isArrayAccess = true := hcs d (by simp)
    rw [List.concat_eq_append, bracketChars, List.flatMap_append, List.flatMap_singleton,
      chars_of_isArrayAccess hd, ← List.append_assoc, ← List.append_assoc, List.getLast?_concat]
    simp

/-- Before a component without brackets a name must not end in a backslash either. -/
theorem faithful_append_key {name : List Char} (hk : k.isArrayAccess = false) :
    Faithful name (cs ++ k :: rest).head? ↔
      Faithful name cs.head? ∧ (cs = [] → name.getLast? ≠ some '\\') := by
  cases cs with
  | cons d cs => simp
  | nil =>
    constructor
    · intro h
      have hend : Faithful name none :=
        ⟨h.star, fun _ d hd => (by cases hd), fun _ => .inl rfl, h.bracket⟩
      refine ⟨hend, fun _ hlast => ?_⟩
      rcases h.last hlast with hnone | ⟨⟨d, hd, harray⟩, -⟩
      · cases hnone
      · obtain rfl : k = d := Option.some.inj hd
        rw [hk] at harray
        exact Bool.noConfusion harray
    · rintro ⟨h, hlast⟩
      refine ⟨h.star, fun _ d hd => ?_, fun h => absurd h (hlast rfl), h.bracket⟩
      obtain rfl : k = d := Option.some.inj hd
      exact hk

theorem writable_append_key (hcs : ∀ d ∈ cs, d.isArrayAccess = true)
    (hk : k.isArrayAccess = false) :
    Writable (c :: (cs ++ k :: rest)) ↔ (chars (c :: cs)).getLast? ≠ some '\\' ∧
      Writable (c :: cs) ∧ Writable (k :: rest) := by
  rw [writable_cons, writable_arrays_append hcs, writable_segment hcs, ne_eq,
    getLast?_chars_iff hcs, ← and_assoc]
  refine and_congr_left fun _ => ?_
  constructor
  · intro h
    refine ⟨?_, fun name hc => ((faithful_append_key hk).1 (h name hc)).1⟩
    rintro ⟨hnil, name, hc, hlast⟩
    exact ((faithful_append_key hk).1 (h name hc)).2 hnil hlast
  · rintro ⟨hlast, h⟩ name hc
    exact (faithful_append_key hk).2 ⟨h name hc, fun hnil hname => hlast ⟨hnil, name, hc, hname⟩⟩

/-- Whether the key of a component, if it is one, is faithful. -/
instance (c : Component) (next : Option Component) :
    Decidable (∀ name, c = .key name → Faithful name.toList next) :=
  match c with
  | .key name =>
    decidable_of_iff (Faithful name.toList next)
      ⟨fun h _ hname => Component.key.inj hname ▸ h, fun h => h name rfl⟩
  | .index _ | .anyKey | .anyIndex => .isTrue fun _ hname => by cases hname

instance decidableWritable : (cs : List Component) → Decidable (Writable cs)
  | [] => .isTrue fun i name hi => by simp at hi
  | c :: cs =>
    have := decidableWritable cs
    decidable_of_iff _ writable_cons.symm

end Writable

/-! ## The round trip -/

section RoundTrip

variable {c k : Component} {cs cs' back rest : List Component}

/-- There is one way to split a path before its second component without brackets. -/
theorem append_key_inj (hcs : ∀ d ∈ cs, d.isArrayAccess = true) (hk : k.isArrayAccess = false)
    (hcs' : ∀ d ∈ cs', d.isArrayAccess = true) (hback : ∀ d ∈ back.head?, d.isArrayAccess = false)
    (h : cs ++ k :: rest = cs' ++ back) : cs = cs' ∧ k :: rest = back := by
  induction cs generalizing cs' with
  | nil =>
    cases cs' with
    | nil => exact ⟨rfl, h⟩
    | cons d cs' =>
      obtain rfl : k = d := List.head_eq_of_cons_eq h
      rw [hcs' k List.mem_cons_self] at hk
      exact Bool.noConfusion hk
  | cons d cs ih =>
    rw [List.forall_mem_cons] at hcs
    cases cs' with
    | nil =>
      obtain rfl : d :: (cs ++ k :: rest) = back := h
      have hd := hback d rfl
      rw [hcs.1] at hd
      exact Bool.noConfusion hd
    | cons d' cs' =>
      obtain ⟨rfl, htail⟩ := List.cons.inj h
      obtain ⟨rfl, hrest⟩ := ih hcs.2 (List.forall_mem_cons.1 hcs').2 htail
      exact ⟨rfl, hrest⟩

/-- A path with a swallowed dot is not read back: a key is lost. -/
theorem parseChars_ne_of_swallowed (hcs : ∀ d ∈ cs, d.isArrayAccess = true)
    (hk : k.isArrayAccess = false) (hlast : (chars (c :: cs)).getLast? = some '\\') :
    parseChars (chars (c :: (cs ++ k :: rest))) ≠ .ok (c :: (cs ++ k :: rest)) := by
  intro h
  obtain ⟨rfl, name, rfl, -⟩ := (getLast?_chars_iff hcs).1 hlast
  have hcount := (keyCount_le h).1
  have hlen := length_segments_chars_le k rest
  rw [chars_append_key hk, (unbroken_chars_cons hcs).length_segments_of_swallowed hlast,
    keyCount_cons_key rfl, List.nil_append, keyCount_cons_key hk] at hcount
  omega

/-- A path whose first dot cuts is read back exactly if both its parts are. -/
theorem parseChars_append_key (hcs : ∀ d ∈ cs, d.isArrayAccess = true)
    (hk : k.isArrayAccess = false) (hl : ∀ d ∈ c :: cs, d.Legible)
    (hlast : (chars (c :: cs)).getLast? ≠ some '\\') :
    parseChars (chars (c :: (cs ++ k :: rest))) = .ok (c :: (cs ++ k :: rest)) ↔
      segmentComponents (chars (c :: cs)) = .ok (c :: cs) ∧
        parseChars (chars (k :: rest)) = .ok (k :: rest) := by
  rw [parseChars, chars_append_key hk, (unbroken_chars_cons hcs).segments_cut hlast,
    segmentsComponents_cons_eq_ok, ← parseChars]
  constructor
  · rintro ⟨front, back, hfront, hback, h⟩
    have hparts : c :: cs = front ∧ k :: rest = back := by
      rcases Bool.eq_false_or_eq_true c.isArrayAccess with hc | hc
      · have hread : segmentComponents (chars (c :: cs)) = .ok (c :: cs) := by
          rw [chars_cons_arrays hcs, segmentComponents_chars_iff hcs hl]
          rintro name rfl
          cases hc
        obtain rfl : front = c :: cs := Except.ok.inj (hfront.symm.trans hread)
        have happ : (c :: cs) ++ k :: rest = (c :: cs) ++ back := h
        exact ⟨rfl, List.append_cancel_left happ⟩
      · -- The keys of the result stand at the fronts of segments, one for each.
        have hone := keyCount_segment_le hfront
        obtain ⟨hmany, hfull⟩ := keyCount_le hback
        have hlen := length_segments_chars_le k rest
        have hcount := congrArg keyCount h
        rw [keyCount_append, keyCount_cons_key hc, keyCount_append, keyCount_arrays hcs,
          keyCount_cons_key hk] at hcount
        cases front with
        | nil =>
          rw [show keyCount [] = 0 from rfl] at hcount
          omega
        | cons d front =>
          obtain ⟨rfl, htail⟩ := List.cons.inj h
          have harrays : ∀ e ∈ front, e.isArrayAccess = true := isArrayAccess_of_mem_tail hfront
          obtain ⟨rfl, hrest⟩ := append_key_inj hcs hk harrays (hfull (by omega)) htail
          exact ⟨rfl, hrest⟩
    obtain ⟨rfl, rfl⟩ := hparts
    exact ⟨hfront, hback⟩
  · rintro ⟨hfront, hback⟩
    exact ⟨c :: cs, k :: rest, hfront, hback, rfl⟩

theorem parseChars_chars_iff (c : Component) (cs : List Component)
    (hl : ∀ d ∈ c :: cs, d.Legible) :
    parseChars (chars (c :: cs)) = .ok (c :: cs) ↔ Writable (c :: cs) := by
  refine segmentInduction (motive := fun cs => (∀ d ∈ cs, d.Legible) →
    (parseChars (chars cs) = .ok cs ↔ Writable cs)) ?_ ?_ c cs hl
  · intro c cs hcs hl
    rw [parseChars, (unbroken_chars_cons hcs).segments_eq, segmentsComponents_cons_eq_ok,
      writable_segment hcs, ← segmentComponents_chars_iff hcs hl, chars_cons_arrays hcs]
    constructor
    · rintro ⟨front, back, hfront, hback, h⟩
      obtain rfl := Except.ok.inj hback
      rw [h, List.append_nil]
      exact hfront
    · intro h
      exact ⟨c :: cs, [], h, rfl, (List.append_nil _).symm⟩
  · intro c cs k rest hcs hk ih hl
    have hparts : ∀ d ∈ (c :: cs) ++ k :: rest, d.Legible := hl
    obtain ⟨hfront, hrest⟩ := List.forall_mem_append.1 hparts
    rw [writable_append_key hcs hk]
    by_cases hlast : (chars (c :: cs)).getLast? = some '\\'
    · exact iff_of_false (parseChars_ne_of_swallowed hcs hk hlast) fun h => h.1 hlast
    · rw [parseChars_append_key hcs hk hfront hlast, ih hrest, and_iff_right hlast,
        chars_cons_arrays hcs, segmentComponents_chars_iff hcs hfront, writable_segment hcs]

/-- A name without backslashes is faithful before everything that its key may stand before. -/
theorem faithful_of_not_mem {name : List Char} {next : Option Component} (h : '\\' ∉ name)
    (hempty : name = [] → ∀ c ∈ next, c.isArrayAccess = false) : Faithful name next where
  star hin := h (hin.subset List.mem_cons_self)
  empty := hempty
  last hlast := absurd (List.mem_of_getLast? hlast) h
  bracket hbracket := by
    obtain ⟨⟨front, rfl, hodd⟩, -⟩ := hbracket
    have hmem := List.mem_of_getLast? (getLast?_of_odd_backslashes hodd)
    exact h (List.mem_append_left _ hmem)

/-- **The round trip of paths.** A path other than the root whose indices have few enough digits is
read back from its written form exactly if each of its keys is faithful, given the component after
it. So it is if no name has a backslash and no empty name stands before brackets. -/
theorem parse_format (p : Path) (hroot : p.isRoot = false)
    (hl : ∀ c ∈ p.components, c.Legible) :
    (parse p.format = .ok p ↔ Writable p.components) ∧
      ((∀ i name, p.components[i]? = some (.key name) → '\\' ∉ name.toList ∧
        (name = "" → ∀ c ∈ p.components[i + 1]?, c.isArrayAccess = false)) →
          parse p.format = .ok p) := by
  obtain ⟨cs⟩ := p
  have hiff : parse (format ⟨cs⟩) = .ok ⟨cs⟩ ↔ Writable cs := by
    cases cs with
    | nil => cases hroot
    | cons c cs =>
      rw [← parseChars_chars_iff c cs hl, parse, format, String.toList_ofList]
      cases parseChars (chars (c :: cs)) <;> simp
  refine ⟨hiff, fun hplain => hiff.2 fun i name hi => ?_⟩
  obtain ⟨hmem, hempty⟩ := hplain i name hi
  exact faithful_of_not_mem hmem fun hname => hempty (String.toList_eq_nil_iff.1 hname)

-- The dot after a backslash is swallowed.
example : ¬ Writable [.key "a\\", .key "b"] := by decide +kernel

/-- Names that end in backslashes may stand before brackets and at the end. -/
theorem parse_format_backslashes :
    parse (format ⟨[.key "a.\\\\", .index 30, .anyKey, .key "[b]\\"]⟩) =
      .ok ⟨[.key "a.\\\\", .index 30, .anyKey, .key "[b]\\"]⟩ :=
  (parse_format ⟨_⟩ rfl (by decide)).1.2 (by decide +kernel)

end RoundTrip

end JsonExpect.Path
