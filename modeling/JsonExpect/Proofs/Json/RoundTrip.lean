import JsonExpect.Proofs.Json.Lexing
import JsonExpect.Proofs.Value.Canonical
import JsonExpect.Proofs.Value.Entries
import JsonExpect.Value.Snapshot

/-!
# Written values are read back

A document without doubles is what its JSON text is read as (`Json.exists_read?_jsonText?`), and so
what its snapshot is taken for when it is offered as input (`Value.toCanonical_snapshot`). The text
is cut into the tokens of the value, `Value.jsonTokens`, and these are read back one value at a
time, whatever collections are open and whatever follows. An integer must have few enough digits for
the dialect. Doubles are left out: document text has no constants for those that are not finite.
-/

namespace JsonExpect

namespace Value

open Json (Token)

mutual

/-- The tokens that the text of a value is cut into. -/
def jsonTokens : Value → List Token
  | .array items => .openArray :: ([.comma].intercalate (itemTokens items) ++ [.closeArray])
  | .object members =>
    .openObject :: ([.comma].intercalate (memberTokens members) ++ [.closeObject])
  | v => [.scalar v]

/-- The tokens of items. -/
def itemTokens : List Value → List (List Token)
  | [] => []
  | v :: vs => jsonTokens v :: itemTokens vs

/-- The tokens of members, each with its name in front. -/
def memberTokens : List (Key × Value) → List (List Token)
  | [] => []
  | (k, v) :: ms => (.scalar k.value :: .colon :: jsonTokens v) :: memberTokens ms

end

end Value

namespace Json

open Value

/-! ## From values to tokens -/

section Text

variable {d : Dialect}

/-- The value has a text, which is cut into the tokens of the value. -/
def Spelled (d : Dialect) (v : Value) : Prop :=
  ∃ t, v.jsonText? = some t ∧ CutInto d t.toList v.jsonTokens

theorem exists_itemTexts? {items : List Value} (h : ∀ v ∈ items, Spelled d v) :
    ∃ ts, itemTexts? items = some ts ∧
      List.Forall₂ (CutInto d) (ts.map String.toList) (itemTokens items) := by
  induction items with
  | nil => exact ⟨[], rfl, .nil⟩
  | cons v vs ih =>
    obtain ⟨⟨t, ht, hcut⟩, hvs⟩ := List.forall_mem_cons.1 h
    obtain ⟨ts, hts, hcuts⟩ := ih hvs
    exact ⟨t :: ts, by rw [itemTexts?, ht, hts], .cons hcut hcuts⟩

theorem exists_memberTexts? {members : List (Key × Value)}
    (h : ∀ m ∈ members, (∃ s, m.1 = .string s) ∧ Spelled d m.2) :
    ∃ ts, memberTexts? members = some ts ∧
      List.Forall₂ (CutInto d) (ts.map String.toList) (memberTokens members) := by
  induction members with
  | nil => exact ⟨[], rfl, .nil⟩
  | cons m ms ih =>
    obtain ⟨⟨⟨s, hs⟩, t, ht, hcut⟩, hms⟩ := List.forall_mem_cons.1 h
    obtain ⟨ts, hts, hcuts⟩ := ih hms
    obtain ⟨k, v⟩ := m
    obtain rfl : k = .string s := hs
    have hlabel : (Key.string s).jsonLabel? = some (quote s ++ ": ") := rfl
    refine ⟨(quote s ++ ": " ++ t) :: ts, by rw [memberTexts?, hlabel, ht, hts], .cons ?_ hcuts⟩
    rw [String.toList_append, String.toList_append, List.append_assoc]
    exact (cutInto_quote s).append ((hcut.blank rfl).punctuation rfl rfl)
      (endsNumeral_cons (by decide))

/-- A document without doubles is spelled if its integers have few enough digits. -/
theorem spelled_of_isDocument {v : Value} (hv : v.IsDocument) (hfloat : ∀ x, ¬ v.Holds (.float x))
    (hint : ∀ n, v.Holds (.int n) → d.Admits n) : Spelled d v := by
  induction hv with
  | null => exact ⟨"null", rfl, cutInto_scalar rfl rfl fun _ _ => scalar?_null⟩
  | bool b =>
    cases b with
    | false => exact ⟨"false", rfl, cutInto_scalar rfl rfl fun _ _ => scalar?_false⟩
    | true => exact ⟨"true", rfl, cutInto_scalar rfl rfl fun _ _ => scalar?_true⟩
  | int n => exact ⟨toString n, rfl, cutInto_toString (hint n (.self _))⟩
  | float x => exact absurd (.self _) (hfloat x)
  | string s => exact ⟨quote s, rfl, cutInto_quote s⟩
  | @array items _ ih =>
    obtain ⟨ts, hts, hcuts⟩ := exists_itemTexts? fun v hv =>
      ih v hv (fun x hx => hfloat x (.part hv hx)) (fun n hn => hint n (.part hv hn))
    refine ⟨"[" ++ ", ".intercalate ts ++ "]", by rw [jsonText?, hts]; rfl, ?_⟩
    rw [String.toList_append, String.toList_append, String.toList_intercalate, List.append_assoc]
    have hends : EndsNumeral [']'] := endsNumeral_cons (by decide)
    exact (cutInto_separated hcuts rfl rfl hends).punctuation rfl rfl
  | @object members strings _ _ ih =>
    obtain ⟨ts, hts, hcuts⟩ := exists_memberTexts? fun m hm =>
      have hpart : m.2 ∈ (Value.object members).parts := List.mem_map.2 ⟨m, hm, rfl⟩
      ⟨strings m hm, ih m hm (fun x hx => hfloat x (.part hpart hx))
        (fun n hn => hint n (.part hpart hn))⟩
    refine ⟨"\x7b" ++ ", ".intercalate ts ++ "\x7d", by rw [jsonText?, hts]; rfl, ?_⟩
    rw [String.toList_append, String.toList_append, String.toList_intercalate, List.append_assoc]
    have hends : EndsNumeral ['}'] := endsNumeral_cons (by decide)
    exact (cutInto_separated hcuts rfl rfl hends).punctuation rfl rfl

end Text

/-! ## From tokens to values -/

namespace Reading

/-- The tokens of a value are read as the value, whatever collections are open. -/
def Formed (v : Value) : Prop :=
  ∀ frames ts, run ⟨.value, frames⟩ (v.jsonTokens ++ ts) = (complete v frames).run ts

/-- Where the array may end as well, the first item is read like any other. -/
theorem run_itemOrEnd (v : Value) (vs done : List Value) (frames : List Frame) (ts : List Token) :
    run ⟨.itemOrEnd, .array done :: frames⟩ ([.comma].intercalate (itemTokens (v :: vs)) ++ ts) =
      run ⟨.value, .array done :: frames⟩ ([.comma].intercalate (itemTokens (v :: vs)) ++ ts) := by
  obtain ⟨us, hus⟩ : ∃ us, [.comma].intercalate (itemTokens (v :: vs)) = v.jsonTokens ++ us := by
    cases vs with
    | nil => exact ⟨[], by rw [itemTokens, itemTokens, List.intercalate_singleton, List.append_nil]⟩
    | cons w ws =>
      exact ⟨_, by rw [itemTokens, itemTokens, List.intercalate_cons_cons, List.append_assoc]⟩
  rw [hus, List.append_assoc]
  -- no value begins with the bracket that would end the array
  cases v <;> rfl

theorem run_items {v : Value} {vs : List Value} (h : ∀ w ∈ v :: vs, Formed w) (done : List Value)
    (frames : List Frame) (ts : List Token) :
    run ⟨.value, .array done :: frames⟩
        ([.comma].intercalate (itemTokens (v :: vs)) ++ .closeArray :: ts) =
      (complete (.array (done.reverse ++ v :: vs)) frames).run ts := by
  obtain ⟨hv, hvs⟩ := List.forall_mem_cons.1 h
  induction vs generalizing v done with
  | nil =>
    rw [itemTokens, itemTokens, List.intercalate_singleton, hv, ← List.reverse_cons]
    rfl
  | cons w ws ih =>
    rw [itemTokens, itemTokens, List.intercalate_cons_cons, List.append_assoc, List.append_assoc,
      hv, ← itemTokens]
    -- the comma asks for a value again, now with this item among those that are done
    have hnext := ih hvs (v :: done) (List.forall_mem_cons.1 hvs).1 (List.forall_mem_cons.1 hvs).2
    rw [List.reverse_cons, List.append_assoc, List.singleton_append] at hnext
    exact hnext

theorem not_mem_of_nodup_map_append {m : Key × Value} {done ms : List (Key × Value)}
    (distinct : ((done ++ m :: ms).map Prod.fst).Nodup) : m.1 ∉ done.map Prod.fst := by
  rw [List.map_append, List.map_cons] at distinct
  exact fun hmem => (List.nodup_append.1 distinct).2.2 _ hmem _ List.mem_cons_self rfl

/-- A name that has not been read takes its place at the end. -/
theorem putMember_eq_append {name : String} {v : Value} {members : List (Key × Value)}
    (h : .string name ∉ members.map Prod.fst) :
    putMember (.string name) v members = members ++ [(.string name, v)] := by
  induction members with
  | nil => rfl
  | cons m ms ih =>
    rw [List.map_cons, List.mem_cons, not_or] at h
    have hm : ¬ m.1.same (.string name) = true := fun hsame =>
      h.1 (Key.eq_of_same_string hsame).symm
    rw [putMember, if_neg hm, ih h.2, List.cons_append]

/-- A member whose name has not been read is put behind those that have been. -/
theorem exists_run_member {m : Key × Value} (hname : ∃ s, m.1 = .string s) (hm : Formed m.2)
    {done : List (Key × Value)} (hnew : m.1 ∉ done.map Prod.fst) (frames : List Frame)
    (ts : List Token) :
    ∃ name, run ⟨.name done, frames⟩ (.scalar m.1.value :: .colon :: m.2.jsonTokens ++ ts) =
      run ⟨.separator, .object (done ++ [m]) name :: frames⟩ ts := by
  obtain ⟨k, v⟩ := m
  obtain ⟨name, rfl⟩ : ∃ s, k = .string s := hname
  refine ⟨name, ?_⟩
  rw [← putMember_eq_append hnew]
  exact hm (.object done name :: frames) ts

theorem run_members {m : Key × Value} {ms : List (Key × Value)}
    (strings : ∀ e ∈ m :: ms, ∃ s, e.1 = .string s) (h : ∀ e ∈ m :: ms, Formed e.2)
    (done : List (Key × Value)) (distinct : ((done ++ m :: ms).map Prod.fst).Nodup)
    (frames : List Frame) (ts : List Token) :
    run ⟨.name done, frames⟩
        ([.comma].intercalate (memberTokens (m :: ms)) ++ .closeObject :: ts) =
      (complete (.object (done ++ m :: ms)) frames).run ts := by
  induction ms generalizing m done with
  | nil =>
    obtain ⟨hname, -⟩ := List.forall_mem_cons.1 strings
    obtain ⟨hm, -⟩ := List.forall_mem_cons.1 h
    have hnew := not_mem_of_nodup_map_append distinct
    obtain ⟨name, hrun⟩ := exists_run_member hname hm hnew frames (.closeObject :: ts)
    rw [memberTokens, memberTokens, List.intercalate_singleton, hrun]
    rfl
  | cons e es ih =>
    obtain ⟨hname, hnames⟩ := List.forall_mem_cons.1 strings
    obtain ⟨hm, hms⟩ := List.forall_mem_cons.1 h
    have hnew := not_mem_of_nodup_map_append distinct
    obtain ⟨name, hrun⟩ := exists_run_member hname hm hnew frames
      (.comma :: ([.comma].intercalate (memberTokens (e :: es)) ++ .closeObject :: ts))
    rw [List.append_cons] at distinct
    rw [memberTokens, memberTokens, List.intercalate_cons_cons, ← memberTokens, List.append_assoc,
      List.append_assoc, List.singleton_append, hrun, List.append_cons done m (e :: es)]
    exact ih hnames hms (done ++ [m]) distinct

/-- The tokens of a document are read as the document. -/
theorem formed_of_isDocument {v : Value} (hv : v.IsDocument) : Formed v := by
  induction hv with
  | @array items _ ih =>
    intro frames ts
    cases items with
    | nil => rfl
    | cons v vs =>
      rw [jsonTokens, List.cons_append, List.append_assoc, List.singleton_append]
      exact (run_itemOrEnd v vs [] frames _).trans (run_items ih [] frames ts)
  | @object members strings distinct _ ih =>
    intro frames ts
    cases members with
    | nil => rfl
    | cons m ms =>
      have hmembers := run_members strings ih [] distinct frames ts
      rw [memberTokens, List.intercalate_cons_cons_left] at hmembers
      rw [jsonTokens, memberTokens, List.intercalate_cons_cons_left, List.cons_append,
        List.append_assoc, List.singleton_append]
      exact hmembers
  | _ => exact fun _ _ => rfl

end Reading

/-- A document without doubles is what its text is read as, if its integers have few enough
digits. -/
theorem exists_read?_jsonText? {d : Dialect} {v : Value} (hv : v.IsDocument)
    (hfloat : ∀ x, ¬ v.Holds (.float x)) (hint : ∀ n, v.Holds (.int n) → d.Admits n) :
    ∃ t, v.jsonText? = some t ∧ read? d t = some v := by
  obtain ⟨t, ht, hcut⟩ := spelled_of_isDocument hv hfloat hint
  have htokens := hcut [] endsNumeral_nil
  have hrun := Reading.formed_of_isDocument hv [] []
  rw [List.append_nil] at htokens hrun
  refine ⟨t, ht, ?_⟩
  rw [read?, htokens, tokens?, Option.map_some, Option.bind_some, List.append_nil, ofTokens?, hrun]
  rfl

/-- Document text admits every integer that can be written. -/
theorem admits_of_hasLongNumeral {n : Int} (hn : hasLongNumeral n = false) :
    documentDialect.Admits n := by
  have hdigits : ∀ {k m : Nat}, 0 < k → m < Nat.pow 10 k → (Nat.toDigits 10 m).length ≤ k :=
    fun hk hm => (Nat.length_toDigits_le_iff (by decide) hk).2 hm
  rw [hasLongNumeral, decide_eq_false_iff_not, Nat.not_le] at hn
  intro k hk
  obtain rfl : longestNumeral = k := Option.some.inj hk
  exact hdigits (by decide) hn

end Json

namespace Value

theorem snapshot_of_isDocument {v : Value} (hv : v.IsDocument) :
    v.snapshot none = v.fullSnapshot := by
  cases hv <;> rfl

/-- **Snapshots are read back.** A document in which no double stands and no integer of too many
digits has an uncut snapshot, and this is JSON text of just the document: offered as input, it is
taken for the document itself, with the same names in the same order, and a null for a null. -/
theorem toCanonical_snapshot {v : Value} (hv : v.IsDocument) (hfloat : ∀ x, ¬ v.Holds (.float x))
    (hint : v.holdsLongInteger = false) :
    ∃ t, v.snapshot none = .ok t ∧ (Value.string t).toCanonical = .ok v := by
  have hadmits : ∀ n, v.Holds (.int n) → Json.documentDialect.Admits n := by
    intro n hn
    refine Json.admits_of_hasLongNumeral (Bool.eq_false_iff.2 fun hlong => ?_)
    rw [holdsLongInteger_of_holds hn hlong] at hint
    cases hint
  obtain ⟨t, ht, hread⟩ := Json.exists_read?_jsonText? hv hfloat hadmits
  refine ⟨t, ?_, ?_⟩
  · rw [snapshot_of_isDocument hv, fullSnapshot, if_neg (by simp [hint]), ht, Option.getD_some]
  · rw [toCanonical, ofText, hread, Option.getD_some]

/-- A test that a document passes at every depth is passed by all that the document holds. -/
theorem IsDocument.of_holds {test : Value → Bool} {v w : Value} (hv : v.IsDocument)
    (htest : v.everywhere test = true) (hw : v.Holds w) : test w = true := by
  induction hw with
  | self => exact (everywhere_iff.1 htest).1
  | @part v p w hp _ ih =>
    obtain ⟨-, hentries⟩ := everywhere_iff.1 htest
    cases hv with
    | array all =>
      have hitems := (forall_mem_entries_array (P := (·.everywhere test = true))).1 hentries
      exact ih (all p hp) (hitems p hp)
    | object _ _ all =>
      obtain ⟨m, hm, rfl⟩ := List.mem_map.1 hp
      exact ih (all m hm) (hentries m hm)
    | _ => cases hp

/-- Names and strings with quotes, backslashes and controls, one of which is JSON text itself, a
null, and empty collections. -/
theorem toCanonical_snapshot_escapes :
    let v : Value := .object [
      (.string "\x00\"\\\x7f", .array [.int (-120), .null, .array [], .bool false]),
      (.string "\u00e9 \u2028", .string "[1,\n\t\x08]"),
      (.string "", .object [])]
    v.IsDocument ∧ (∀ x, ¬ v.Holds (.float x)) ∧ v.holdsLongInteger = false ∧
      ∃ t, v.snapshot none = .ok t ∧ (Value.string t).toCanonical = .ok v := by
  intro v
  have hv : v.IsDocument := by decide +kernel
  have hkinds : v.everywhere (·.kind? != some .number) = true := by decide +kernel
  have hfloat : ∀ x, ¬ v.Holds (.float x) := by
    intro x hx
    have hkind := hv.of_holds hkinds hx
    cases hkind
  have hint : v.holdsLongInteger = false := by decide +kernel
  exact ⟨hv, hfloat, hint, toCanonical_snapshot hv hfloat hint⟩

end Value

end JsonExpect
