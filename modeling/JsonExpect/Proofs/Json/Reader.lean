import JsonExpect.Json.Reader
import JsonExpect.Proofs.Value.Document

/-!
# Texts give documents

What is read from a JSON text is a document, in every dialect (`Json.isDocument_of_read?`). What has
been read at any moment is one already: the scalars of tokens are, what the open collections hold
is, and a step puts nothing else into them. Names come from string tokens, and a name that is read
again takes no second place, so the members of an object have distinct names.
-/

namespace JsonExpect

/-! ## Putting a member -/

section PutMember

variable {name : String} {v : Value} {members : List (Key × Value)}

theorem mem_putMember {k : Key} {m : Key × Value} (h : m ∈ putMember k v members) :
    m = (k, v) ∨ (∃ d ∈ members, d.1.same k = true ∧ m = (d.1, v)) ∨ m ∈ members := by
  induction members with
  | nil => exact .inl (List.mem_singleton.1 h)
  | cons d ds ih =>
    unfold putMember at h
    split at h
    · next hd =>
      rcases List.mem_cons.1 h with rfl | h
      · exact .inr (.inl ⟨d, List.mem_cons_self, hd, rfl⟩)
      · exact .inr (.inr (List.mem_cons_of_mem _ h))
    · rcases List.mem_cons.1 h with rfl | h
      · exact .inr (.inr List.mem_cons_self)
      · rcases ih h with h | ⟨e, he, hsame, h⟩ | h
        · exact .inl h
        · exact .inr (.inl ⟨e, List.mem_cons_of_mem _ he, hsame, h⟩)
        · exact .inr (.inr (List.mem_cons_of_mem _ h))

/-- A string name that is put takes no second place. -/
theorem keys_putMember (strings : ∀ m ∈ members, ∃ s, m.1 = .string s) :
    (putMember (.string name) v members).map Prod.fst =
      if .string name ∈ members.map Prod.fst then members.map Prod.fst
      else members.map Prod.fst ++ [.string name] := by
  induction members with
  | nil => rfl
  | cons d ds ih =>
    obtain ⟨s, hs⟩ := strings d List.mem_cons_self
    have ih := ih fun m hm => strings m (List.mem_cons_of_mem _ hm)
    unfold putMember
    rw [hs, Key.same_string]
    by_cases h : s = name
    · simp [h, hs]
    · have hne : Key.string name ≠ .string s := fun heq => h (Key.string.inj heq).symm
      simp only [h, decide_false, Bool.false_eq_true, if_false, List.map_cons, hs, ih,
        List.mem_cons, hne, false_or]
      split <;> rfl

/-- An object stays a document when a member is put. -/
theorem Value.IsDocument.putMember (h : (Value.object members).IsDocument) (hv : v.IsDocument)
    (name : String) : (Value.object (putMember (.string name) v members)).IsDocument := by
  obtain _ | _ | _ | _ | _ | _ | ⟨strings, distinct, all⟩ := h
  refine .object (fun m hm => ?_) ?_ (fun m hm => ?_)
  · rcases mem_putMember hm with rfl | ⟨d, hd, _, rfl⟩ | hm
    · exact ⟨name, rfl⟩
    · exact strings d hd
    · exact strings m hm
  · rw [keys_putMember strings]
    split
    · exact distinct
    · next hname =>
      refine List.Nodup.append distinct (List.nodup_singleton _) fun k hk hk' => ?_
      rw [List.mem_singleton.1 hk'] at hk
      exact hname hk
  · rcases mem_putMember hm with rfl | ⟨d, _, _, rfl⟩ | hm
    · exact hv
    · exact hv
    · exact all m hm

end PutMember

namespace Json

/-! ## Scalars -/

theorem isDocument_of_numeral? {limit : Option Nat} {cs rest : List Char} {v : Value}
    (h : numeral? limit cs = some (v, rest)) : v.IsDocument := by
  unfold numeral? at h
  simp only at h
  split at h
  · cases h
  · split at h
    · split at h
      · cases h
      · cases h; exact .int _
    · cases h; exact .float _

theorem isDocument_of_word? {d : Dialect} {cs rest : List Char} {v : Value}
    (h : word? d cs = some (v, rest)) : v.IsDocument := by
  obtain ⟨w, hw, h⟩ := List.exists_of_findSome?_eq_some h
  obtain ⟨t, -, h⟩ := Option.map_eq_some_iff.1 h
  cases h
  have hwords : ∀ w ∈ words d, w.2.IsDocument := by
    have hstandard : ∀ w ∈ [("null".toList, Value.null), ("true".toList, .bool true),
        ("false".toList, .bool false)], w.2.IsDocument := by
      simp only [List.forall_mem_cons, List.not_mem_nil, false_implies, implies_true, and_true]
      exact ⟨.null, .bool true, .bool false⟩
    unfold words
    intro w hw
    rcases List.mem_append.1 hw with hw | hw
    · exact hstandard w hw
    · split at hw
      · simp only [List.mem_cons, List.not_mem_nil, or_false] at hw
        rcases hw with rfl | rfl | rfl <;> exact .float _
      · cases hw
  exact hwords w hw

theorem isDocument_of_scalar? {d : Dialect} {cs rest : List Char} {v : Value}
    (h : scalar? d cs = some (v, rest)) : v.IsDocument := by
  unfold scalar? at h
  split at h
  · cases h
  · split at h
    · obtain ⟨q, -, h⟩ := Option.map_eq_some_iff.1 h
      cases h
      exact .string _
    · split at h
      · next hw => cases h; exact isDocument_of_word? hw
      · exact isDocument_of_numeral? h

/-- A token that is punctuation, or a scalar that is a document. -/
def Token.IsSound : Token → Prop
  | .scalar v => v.IsDocument
  | _ => True

theorem isSound_of_punctuation? {c : Char} {t : Token} (h : punctuation? c = some t) :
    t.IsSound := by
  cases t with
  | scalar v =>
    unfold punctuation? at h
    grind
  | _ => trivial

theorem isSound_of_tokens? {d : Dialect} {cs : List Char} {ts : List Token}
    (h : tokens? d cs = some ts) : ∀ t ∈ ts, t.IsSound := by
  fun_induction tokens? d cs generalizing ts with
  | case1 => cases h; simp
  | case2 c cs _ ih => exact ih h
  | case3 c cs _ t ht ih =>
    obtain ⟨us, hus, rfl⟩ := Option.map_eq_some_iff.1 h
    exact List.forall_mem_cons.2 ⟨isSound_of_punctuation? ht, ih hus⟩
  | case4 c cs _ _ v rest hv ih =>
    obtain ⟨us, hus, rfl⟩ := Option.map_eq_some_iff.1 h
    exact List.forall_mem_cons.2 ⟨isDocument_of_scalar? hv, ih hus⟩
  | case5 => cases h

/-! ## Reading -/

/-- An open collection that holds nothing but documents, under distinct names. -/
def Frame.IsSound : Frame → Prop
  | .array items => (Value.array items).IsDocument
  | .object members _ => (Value.object members).IsDocument

/-- The same of what the next token is expected in. -/
def Expecting.IsSound : Expecting → Prop
  | .nameOrEnd members => (Value.object members).IsDocument
  | .name members => (Value.object members).IsDocument
  | .finish v => v.IsDocument
  | _ => True

/-- A state of reading in which everything that has been read is a document. -/
structure Reading.IsSound (r : Reading) : Prop where
  next : r.next.IsSound
  frames : ∀ f ∈ r.frames, f.IsSound

namespace Reading

variable {v : Value} {frames : List Frame} {t : Token} {r r' : Reading}

theorem isSound_complete (hv : v.IsDocument) (hf : ∀ f ∈ frames, f.IsSound) :
    (complete v frames).IsSound := by
  unfold complete
  split
  · exact ⟨hv, by simp⟩
  · obtain ⟨hitems, hrest⟩ := List.forall_mem_cons.1 hf
    cases hitems with
    | array all =>
      exact ⟨trivial, List.forall_mem_cons.2 ⟨.array (List.forall_mem_cons.2 ⟨hv, all⟩), hrest⟩⟩
  · next name _ =>
    obtain ⟨hmembers, hrest⟩ := List.forall_mem_cons.1 hf
    exact ⟨trivial, List.forall_mem_cons.2 ⟨hmembers.putMember hv name, hrest⟩⟩

theorem isSound_begin (hf : ∀ f ∈ frames, f.IsSound) (ht : t.IsSound)
    (h : begin frames t = some r) : r.IsSound := by
  unfold begin at h
  split at h
  · cases h
    exact ⟨trivial, List.forall_mem_cons.2 ⟨.array (by simp), hf⟩⟩
  · cases h
    exact ⟨.object (by simp) (by simp) (by simp), hf⟩
  · cases h
    exact isSound_complete ht hf
  · cases h

theorem isSound_beginMember {members : List (Key × Value)}
    (hm : (Value.object members).IsDocument) (hf : ∀ f ∈ frames, f.IsSound)
    (h : beginMember members frames t = some r) : r.IsSound := by
  unfold beginMember at h
  split at h
  · cases h
    exact ⟨trivial, List.forall_mem_cons.2 ⟨hm, hf⟩⟩
  · cases h

theorem isDocument_reverse {items : List Value} (h : (Value.array items).IsDocument) :
    (Value.array items.reverse).IsDocument := by
  cases h with
  | array all => exact .array fun v hv => all v (List.mem_reverse.1 hv)

/-- A token that is read leaves everything a document. -/
theorem IsSound.step (hr : r.IsSound) (ht : t.IsSound) (h : r.step t = some r') : r'.IsSound := by
  obtain ⟨next, frames⟩ := r
  have hnext : next.IsSound := hr.next
  have hframes : ∀ f ∈ frames, f.IsSound := hr.frames
  simp only [Reading.step] at h
  split at h
  · exact isSound_begin hframes ht h
  · cases h
    obtain ⟨hitems, hrest⟩ := List.forall_mem_cons.1 hframes
    exact isSound_complete (isDocument_reverse hitems) hrest
  · exact isSound_begin hframes ht h
  · cases h
    exact isSound_complete hnext hframes
  · exact isSound_beginMember hnext hframes h
  · exact isSound_beginMember hnext hframes h
  · cases h
    exact ⟨trivial, hframes⟩
  · cases h
    exact ⟨trivial, hframes⟩
  · cases h
    obtain ⟨hitems, hrest⟩ := List.forall_mem_cons.1 hframes
    exact isSound_complete (isDocument_reverse hitems) hrest
  · cases h
    obtain ⟨hmembers, hrest⟩ := List.forall_mem_cons.1 hframes
    exact ⟨hmembers, hrest⟩
  · cases h
    obtain ⟨hmembers, hrest⟩ := List.forall_mem_cons.1 hframes
    exact isSound_complete hmembers hrest
  · cases h

theorem IsSound.run (hr : r.IsSound) {ts : List Token} (ht : ∀ t ∈ ts, t.IsSound)
    (h : r.run ts = some r') : r'.IsSound := by
  induction ts generalizing r with
  | nil => cases h; exact hr
  | cons t ts ih =>
    obtain ⟨ht, hts⟩ := List.forall_mem_cons.1 ht
    obtain ⟨q, hq, h⟩ := Option.bind_eq_some_iff.1 h
    exact ih (hr.step ht hq) hts h

end Reading

/-- What is read from a text is a document. -/
theorem isDocument_of_read? {d : Dialect} {text : String} {v : Value}
    (h : read? d text = some v) : v.IsDocument := by
  obtain ⟨ts, hts, h⟩ := Option.bind_eq_some_iff.1 h
  unfold ofTokens? at h
  split at h
  · next hrun =>
    cases h
    have hstart : Reading.IsSound ⟨.value, []⟩ := ⟨trivial, by simp⟩
    exact (hstart.run (isSound_of_tokens? hts) hrun).next
  · cases h

end Json

end JsonExpect
