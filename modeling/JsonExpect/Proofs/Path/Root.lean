import JsonExpect.Assertion.Basic
import JsonExpect.Proofs.Options.Log
import JsonExpect.Proofs.Path.Composition
import JsonExpect.Proofs.Yields

/-!
# Texts that are read as the root

The empty text is read as an empty key. But a segment that is made of brackets alone has no key, and
malformed brackets are dropped, so of a text in which nothing else stands no component is left: it
is read as the root. `parse_eq_root_iff` says that these texts are the only ones, and that only
they lead a setting to the root of an option tree.
-/

namespace JsonExpect

namespace Path

/-- Whether a segment is made of brackets alone, none of which holds an index or an asterisk. -/
def Hollow (segment : List Char) : Prop :=
  ∃ contents, contents ≠ [] ∧ unescape '.' segment = enclose contents ∧
    ∀ content ∈ contents, Enclosed content ∧ bracketed content = []

variable {segment content : List Char} {contents rest : List (List Char)}

theorem bracketComponent_eq_none_iff :
    bracketComponent content = .ok none ↔ bracketed content = [] := by
  unfold bracketComponent bracketed
  simp only [List.all_eq_true]
  split
  · simp
  · split
    · split <;> simp
    · simp

theorem bracketComponents_eq_nil_iff :
    bracketComponents contents = .ok [] ↔ ∀ content ∈ contents, bracketed content = [] := by
  induction contents with
  | nil => simp [bracketComponents]
  | cons content contents ih =>
    rw [List.forall_mem_cons, ← ih, ← bracketComponent_eq_none_iff, bracketComponents]
    cases bracketComponent content with
    | error e => simp
    | ok found =>
      cases bracketComponents contents with
      | error e => simp
      | ok cs => cases found <;> simp

/-- A segment is read as nothing exactly if it is hollow. -/
theorem segmentComponents_eq_nil_iff : segmentComponents segment = .ok [] ↔ Hollow segment := by
  constructor
  · intro h
    obtain ⟨left, contents, hpeel, hsplit, hall⟩ := exists_peelBrackets (unescape '.' segment)
    have hnil := hpeel []
    rw [List.append_nil] at hnil
    rw [segmentComponents, hnil] at h
    simp only [List.reverse_eq_nil_iff] at h
    split at h
    · cases h
    · next cs hcs =>
      obtain ⟨hkey, rfl⟩ := List.append_eq_nil_iff.1 (Except.ok.inj h)
      split at hkey
      · next hleft =>
        obtain ⟨rfl, hne⟩ := hleft
        have hdropped := bracketComponents_eq_nil_iff.1 hcs
        exact ⟨contents, hne, hsplit, fun content hc => ⟨hall content hc, hdropped content hc⟩⟩
      · cases hkey
  · rintro ⟨contents, hne, hsegment, hall⟩
    have hpeel : peelBrackets [] (unescape '.' segment).reverse = (contents, []) := by
      rw [hsegment, peelBrackets_enclose fun c hc => (hall c hc).1, List.append_nil]
    have hcs := bracketComponents_eq_nil_iff.2 fun c hc => (hall c hc).2
    rw [segmentComponents_of_peel hpeel hcs, if_pos ⟨rfl, hne⟩]
    rfl

theorem segmentsComponents_eq_nil_iff :
    segmentsComponents rest = .ok [] ↔ ∀ segment ∈ rest, Hollow segment := by
  induction rest with
  | nil => simp [segmentsComponents]
  | cons segment rest ih =>
    rw [segmentsComponents_cons_eq_ok, List.forall_mem_cons, ← ih, ← segmentComponents_eq_nil_iff]
    constructor
    · rintro ⟨front, back, hfront, hback, hnil⟩
      obtain ⟨rfl, rfl⟩ := List.append_eq_nil_iff.1 hnil.symm
      exact ⟨hfront, hback⟩
    · rintro ⟨hfront, hback⟩
      exact ⟨[], [], hfront, hback, rfl⟩

end Path

namespace Node

/-- Whether a setting at a path may change what the root of an option tree says itself. -/
def ReachesRoot (p : Path) : Prop :=
  ∃ (n : Node) (s : Setting) (scope : Scope),
    (Call.after ⟨s, p, scope⟩ n).own ≠ n.own ∨ (Call.after ⟨s, p, scope⟩ n).defaults ≠ n.defaults

theorem reachesRoot_iff (p : Path) : ReachesRoot p ↔ p = .root := by
  obtain ⟨cs⟩ := p
  constructor
  · rintro ⟨n, s, scope, hset⟩
    cases cs with
    | nil => rfl
    | cons c cs =>
      have hkept : (Call.after ⟨s, ⟨c :: cs⟩, scope⟩ n).own = n.own ∧
          (Call.after ⟨s, ⟨c :: cs⟩, scope⟩ n).defaults = n.defaults := by
        by_cases hl : Path.Legible ⟨c :: cs⟩
        · rw [Call.after_of_legible hl, update]
          split <;> exact ⟨rfl, rfl⟩
        · rw [Call.after_of_not_legible hl, halted]
          split
          · split <;> exact ⟨rfl, rfl⟩
          · exact ⟨rfl, rfl⟩
      exact (hset.elim (· hkept.1) (· hkept.2)).elim
  · intro h
    rw [h]
    exact ⟨{}, .elementCount 0, .singleNode, .inl (by decide)⟩

end Node

namespace Path

/-- **Texts that are read as the root.** A text is read as the root exactly if all of its segments
are hollow. So these are the texts at which a setting may change the root of an option tree. -/
theorem parse_eq_root_iff (text : String) :
    (parse text = .ok .root ↔ ∀ segment ∈ segments false text.toList, Hollow segment) ∧
      ∀ p, parse text = .ok p →
        (Node.ReachesRoot p ↔ ∀ segment ∈ segments false text.toList, Hollow segment) := by
  have hroot : parse text = .ok .root ↔ ∀ segment ∈ segments false text.toList, Hollow segment := by
    rw [parse_eq_ok_iff]
    exact segmentsComponents_eq_nil_iff
  refine ⟨hroot, fun p hp => ?_⟩
  rw [Node.reachesRoot_iff, ← hroot, hp, Except.ok.injEq]

/-- An escaped dot, stray brackets and a negative index. -/
theorem parse_eq_root_iff_stray :
    let text := "[a\\.b]].[-1][\\[]"
    parse text = .ok .root ∧ Node.ReachesRoot .root ∧
      ∀ segment ∈ segments false text.toList, Hollow segment := by
  intro text
  have hparse : parse text = .ok .root := eq_ok_of_toOption (by decide +kernel)
  obtain ⟨hroot, hreaches⟩ := parse_eq_root_iff text
  exact ⟨hparse, (hreaches .root hparse).2 (hroot.1 hparse), hroot.1 hparse⟩

/-- A path that names no place asks for as many members at the root as were expected. -/
theorem parse_root_of_stray :
    let a : Assertion := {
      expected := .object [(.string "a", .int 1)]
      actual := .object [(.string "a", .int 1), (.string "b", .int 2)] }
    let b := (a.direct (.scoped .equalCount .singleNode) [.value (.string "[x]")]).toOption
    parse "[x]" = .ok .root ∧ a.check.toOption = some true ∧
      b.bind (·.check.toOption) = some false := by
  intro a b
  exact ⟨eq_ok_of_toOption (by decide +kernel), by decide +kernel, by decide +kernel⟩

end Path

end JsonExpect
