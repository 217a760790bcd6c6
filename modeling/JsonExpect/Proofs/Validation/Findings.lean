import Mathlib.Data.Option.Basic
import JsonExpect.Validation.Comparison

/-!
# What findings carry

Findings in turn are joined to one: the failures of all of them, and the first obstacle that one of
them has met. A single failure meets an obstacle where a side that it shows holds an integer of too
many digits, or where its location cannot be written; so every obstacle is accounted for by what is
shown and where (`Accounted`).
-/

namespace JsonExpect

/-- What keeps a value from being shown. -/
def Value.obstacle? (v : Value) : Option Obstacle :=
  if v.holdsLongInteger then some .longInteger else none

theorem Value.obstacle?_eq_some_iff {v : Value} {o : Obstacle} :
    v.obstacle? = some o ↔ o = .longInteger ∧ v.holdsLongInteger = true := by
  unfold obstacle?
  cases v.holdsLongInteger <;> simp [eq_comm]

theorem Value.obstacle?_eq_none_iff {v : Value} :
    v.obstacle? = none ↔ v.holdsLongInteger = false := by
  unfold obstacle?
  cases v.holdsLongInteger <;> simp

theorem Key.obstacle?_eq_some_iff {k : Key} {o : Obstacle} :
    k.obstacle? = some o ↔ o = .longInteger ∧ k.holdsLongInteger = true := by
  unfold obstacle?
  cases k.holdsLongInteger <;> simp [eq_comm]

namespace Location

theorem obstacle?_eq_none_iff {l : Location} :
    obstacle? l = none ↔ ∀ k ∈ l, k.isWritable = true := by
  unfold obstacle?
  rw [Option.map_eq_none_iff, List.find?_eq_none]
  simp

end Location

namespace Findings

theorem append_empty (a : Findings) : a ++ (∅ : Findings) = a := by
  obtain ⟨failures, obstacle⟩ := a
  have h : (obstacle <|> none) = obstacle := by cases obstacle <;> rfl
  exact congrArg₂ Findings.mk (List.append_nil failures) h

theorem append_assoc (a b c : Findings) : a ++ b ++ c = a ++ (b ++ c) := by
  obtain ⟨failures, obstacle⟩ := a
  refine congrArg₂ Findings.mk (List.append_assoc ..) ?_
  cases obstacle <;> rfl

/-! ## Findings in turn -/

/-- Findings put together in order. -/
def join (founds : List Findings) : Findings :=
  ⟨founds.flatMap (·.failures), founds.findSome? (·.obstacle)⟩

theorem join_cons (found : Findings) (founds : List Findings) :
    join (found :: founds) = found ++ join founds := by
  refine congrArg₂ Findings.mk List.flatMap_cons ?_
  rw [List.findSome?_cons]
  cases found.obstacle <;> rfl

theorem join_append (founds founds' : List Findings) :
    join (founds ++ founds') = join founds ++ join founds' := by
  induction founds with
  | nil => rfl
  | cons found founds ih => rw [List.cons_append, join_cons, ih, join_cons, append_assoc]

theorem join_of_forall_empty {founds : List Findings} (h : ∀ found ∈ founds, found = ∅) :
    join founds = ∅ := by
  induction founds with
  | nil => rfl
  | cons found founds ih =>
    obtain ⟨hfound, hfounds⟩ := List.forall_mem_cons.1 h
    rw [join_cons, hfound, ih hfounds]
    rfl

/-! ## Single failures -/

section Sides

variable {policy : SnapshotPolicy} {location : Location} {reason : Reason}
  {expected actual : Option (Except Obstacle String)}

/-- What is written around a side does not keep it from being written. -/
theorem sideObstacle?_map (side : Except Obstacle String) (f : String → String) :
    sideObstacle? (some (side.map f)) = sideObstacle? (some side) := by
  cases side <;> rfl

theorem snapshot_of_isMissing (limit : Option Int) {v : Value} (hv : v.isMissing = true) :
    v.snapshot limit = .ok "<missing>" ∧ v.holdsLongInteger = false := by
  cases v with
  | missing => exact ⟨by simp only [Value.snapshot], by simp only [Value.holdsLongInteger]⟩
  | _ => cases hv

theorem snapshot_of_present (limit : Option Int) {v : Value} (hv : v.isMissing = false) :
    v.snapshot limit = limit.elim v.fullSnapshot fun n => v.fullSnapshot.map (cutText n) := by
  cases v with
  | missing => cases hv
  | _ => cases limit <;> simp only [Value.snapshot, Option.elim]

/-- A snapshot is kept from being written by what stands in the value. -/
theorem sideObstacle?_snapshot (limit : Option Int) (v : Value) :
    sideObstacle? (some (v.snapshot limit)) = v.obstacle? := by
  cases hv : v.isMissing with
  | true =>
    obtain ⟨hsnapshot, hint⟩ := snapshot_of_isMissing limit hv
    rw [hsnapshot, Value.obstacle?_eq_none_iff.2 hint]
    rfl
  | false =>
    have hfull : sideObstacle? (some v.fullSnapshot) = v.obstacle? := by
      unfold Value.fullSnapshot Value.obstacle?
      split <;> rfl
    rw [snapshot_of_present limit hv]
    cases limit with
    | none => exact hfull
    | some n => exact (sideObstacle?_map _ _).trans hfull

theorem sideObstacle?_countedSnapshot (limit : Option Int) (count : Nat) (v : Value) :
    sideObstacle? (some (v.countedSnapshot limit count)) = v.obstacle? := by
  rw [Value.countedSnapshot, sideObstacle?_map, sideObstacle?_snapshot]

theorem sideObstacle?_countText (n : Int) :
    sideObstacle? (some (Constraints.countText n)) =
      if hasLongNumeral n then some .longInteger else none := by
  unfold Constraints.countText
  cases hasLongNumeral n <;> rfl

@[simp] theorem obstacle_report :
    (report policy location reason expected actual).obstacle =
      (sideObstacle? expected <|> sideObstacle? actual <|> Location.obstacle? location) := rfl

@[simp] theorem failures_report :
    (report policy location reason expected actual).failures =
      [⟨location, reason, shown policy expected, shown policy actual⟩] := rfl

end Sides

end Findings

end JsonExpect
