import JsonExpect.Location
import JsonExpect.Proofs.Path.Composition

/-!
# Locations of failures as paths

Locations and paths are written by rules of their own: a location shows an empty key as two quotes
and escapes nothing but dots, and nothing in it stands for every key. Where all its keys are plain,
both rules agree, so the text of a location is the written form of the path that leads there, and is
read back as this path (`Location.parse_text`). No other location of plain keys has the same text.
-/

namespace JsonExpect

namespace Key

/-- The component that leads to the same place as a name or an index. -/
def component : Key → Component
  | .string s => .key s
  | .int n => .index n.toNat
  | k => .key k.display

/-- A name that is neither empty nor an asterisk and has no brackets and no backslash, or an index
with few enough digits. -/
inductive Plain : Key → Prop where
  | name {s : String} (ne : s ≠ "") (star : s ≠ "*")
      (unescaped : ∀ c ∈ s.toList, c ≠ '[' ∧ c ≠ ']' ∧ c ≠ '\\') : Plain (.string s)
  | index {i : Nat} (short : (Nat.toDigits 10 i).length ≤ longestNumeral) : Plain (.int i)

variable {k k' : Key}

/-- Without brackets in a name there are only dots to escape. -/
theorem escapeDots_eq_escapeKey {name : List Char} (hstar : name ≠ ['*'])
    (hplain : ∀ c ∈ name, c ≠ '[' ∧ c ≠ ']' ∧ c ≠ '\\') : escapeDots name = escapeKey name := by
  rw [escapeKey, if_neg hstar, escapeDots, escapeMarks]
  refine List.flatMap_congr fun c hc => ?_
  obtain ⟨hopen, hclose, -⟩ := hplain c hc
  by_cases hdot : c = '.'
  · rw [if_pos hdot, if_pos (.inl hdot), hdot]
  · simp [hdot, hopen, hclose]

theorem Plain.stepChars_eq (h : k.Plain) : k.stepChars = k.component.chars := by
  cases h with
  | @name s ne star unescaped =>
    have hne : s.toList ≠ [] := fun h => ne (String.toList_eq_nil_iff.1 h)
    have hstar : s.toList ≠ ['*'] := fun h => star (String.toList_inj.1 h)
    rw [stepChars, if_neg hne, escapeDots_eq_escapeKey hstar unescaped]
    rfl
  | @index i _ =>
    have hnumeral : toString (i : Int) = String.ofList (Nat.toDigits 10 i) :=
      Nat.toString_eq_ofList_toDigits
    have hdigits : (Key.int i).literal.toList = Nat.toDigits 10 i := by
      rw [literal, hnumeral, String.toList_ofList]
    exact congrArg ('[' :: · ++ [']']) hdigits

theorem Plain.isIndex_eq (h : k.Plain) : k.isIndex = k.component.isArrayAccess := by
  cases h <;> rfl

theorem Plain.legible_component (h : k.Plain) : k.component.Legible := by
  cases h with
  | name => exact trivial
  | index short => exact short

/-- Plain keys lead to one place only if they are the same. -/
theorem Plain.component_inj (h : k.Plain) (h' : k'.Plain) (heq : k.component = k'.component) :
    k = k' := by
  cases h with
  | name =>
    cases h' with
    | name => exact congrArg Key.string (Component.key.inj heq)
    | index => cases heq
  | index =>
    cases h' with
    | name => cases heq
    | index => exact congrArg (fun i : Nat => Key.int i) (Component.index.inj heq)

end Key

namespace Location

/-- The path that leads to the same place as a location. -/
def path (l : Location) : Path := ⟨l.map Key.component⟩

variable {l l' : Location}

theorem charsAfter_eq (h : ∀ k ∈ l, k.Plain) :
    charsAfter l = Path.charsAfter (l.map Key.component) := by
  induction l with
  | nil => rfl
  | cons k l ih =>
    obtain ⟨hk, hl⟩ := List.forall_mem_cons.1 h
    rw [charsAfter, hk.isIndex_eq, hk.stepChars_eq, ih hl]
    rfl

/-- The text of a location of plain keys is the written form of its path. -/
theorem text_eq_format (h : ∀ k ∈ l, k.Plain) : l.text = l.path.format := by
  cases l with
  | nil => rfl
  | cons k l =>
    obtain ⟨hk, hl⟩ := List.forall_mem_cons.1 h
    rw [text, chars, hk.stepChars_eq, charsAfter_eq hl]
    rfl

/-- The keys of the path of a location of plain keys are faithful to their names. -/
theorem writable_path (h : ∀ k ∈ l, k.Plain) : Path.Writable l.path.components := by
  intro i name hi
  obtain ⟨k, hk, hname⟩ := List.mem_map.1 (List.mem_of_getElem? hi)
  cases h k hk with
  | @name s ne _ unescaped =>
    obtain rfl := Component.key.inj hname
    have hbackslash : '\\' ∉ s.toList := fun hmem => (unescaped _ hmem).2.2 rfl
    exact Path.faithful_of_not_mem hbackslash fun hnil =>
      absurd (String.toList_eq_nil_iff.1 hnil) ne
  | index => cases hname

theorem parse_format_path (hne : l ≠ []) (h : ∀ k ∈ l, k.Plain) :
    Path.parse l.path.format = .ok l.path := by
  cases l with
  | nil => exact absurd rfl hne
  | cons k l =>
    have hlegible : ∀ c ∈ (k :: l).map Key.component, c.Legible :=
      List.forall_mem_map.2 fun k hk => (h k hk).legible_component
    rw [Path.parse_eq_ok_iff, Path.format, String.toList_ofList]
    exact (Path.parseChars_chars_iff k.component (l.map Key.component) hlegible).2
      (writable_path h)

/-- Paths tell locations of plain keys apart. -/
theorem path_inj (h : ∀ k ∈ l, k.Plain) (h' : ∀ k ∈ l', k.Plain) (heq : l.path = l'.path) :
    l = l' := by
  have hcomponents : l.map Key.component = l'.map Key.component := congrArg Path.components heq
  clear heq
  induction l generalizing l' with
  | nil => exact (List.map_eq_nil_iff.1 hcomponents.symm).symm
  | cons k l ih =>
    cases l' with
    | nil => cases hcomponents
    | cons k' l' =>
      obtain ⟨hk, hl⟩ := List.forall_mem_cons.1 h
      obtain ⟨hk', hl'⟩ := List.forall_mem_cons.1 h'
      obtain ⟨hhead, htail⟩ := List.cons.inj hcomponents
      rw [hk.component_inj hk' hhead, ih hl hl' htail]

/-- **Texts of locations are paths.** The text of a location of plain keys, at least one, is read as
the path of these keys, and it is the written form of this path. No other such location has the same
text. -/
theorem parse_text (hne : l ≠ []) (h : ∀ k ∈ l, k.Plain) :
    Path.parse l.text = .ok l.path ∧ l.text = l.path.format ∧
      ∀ l' : Location, l' ≠ [] → (∀ k ∈ l', k.Plain) → l'.text = l.text → l' = l := by
  have hparse : ∀ {l : Location}, l ≠ [] → (∀ k ∈ l, k.Plain) → Path.parse l.text = .ok l.path := by
    intro l hne h
    rw [text_eq_format h]
    exact parse_format_path hne h
  refine ⟨hparse hne h, text_eq_format h, fun l' hne' h' heq => path_inj h' h ?_⟩
  have hread := hparse hne' h'
  rw [heq, hparse hne h] at hread
  exact (Except.ok.inj hread).symm

/-- An index in front, dots in names and a name of a dot alone. -/
theorem parse_text_dots :
    let l : Location := [.int 0, .string "a.b", .int 12, .string "."]
    l ≠ [] ∧ (∀ k ∈ l, k.Plain) ∧ l.text = "[0].a\\.b[12].\\." ∧
      Path.parse l.text = .ok ⟨[.index 0, .key "a.b", .index 12, .key "."]⟩ ∧
        ∀ l' : Location, l' ≠ [] → (∀ k ∈ l', k.Plain) → l'.text = l.text → l' = l := by
  intro l
  have hplain : ∀ k ∈ l, k.Plain := by
    simp only [l, List.forall_mem_cons]
    exact ⟨.index (by decide), .name (by decide) (by decide) (by simp), .index (by decide),
      .name (by decide) (by decide) (by simp), List.forall_mem_nil _⟩
  obtain ⟨hparse, -, hunique⟩ := parse_text (List.cons_ne_nil _ _) hplain
  exact ⟨List.cons_ne_nil _ _, hplain, by decide, hparse, hunique⟩

-- An empty key is shown like a key of two quotes.
example : Location.text [.string ""] = Location.text [.string "\"\""] := by decide

end Location

end JsonExpect
