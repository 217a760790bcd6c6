import JsonExpect.Json.Writer
import JsonExpect.Location

/-!
# Snapshots of values

Failures show values as one line of JSON text, or in literal notation where a value has no JSON
text. Long snapshots are cut; lengths count characters. A value that holds an integer of too many
digits has no snapshot at all, since neither notation can write it: it is an `Obstacle` to any text
it should stand in.
-/

namespace JsonExpect

/-- Cuts a text that is longer than `limit` and marks the cut. A negative limit counts from the end,
and is always exceeded. -/
def cutText (limit : Int) (text : String) : String :=
  let cs := text.toList
  if (cs.length : Int) ≤ limit then text
  else
    let kept := if limit < 0 then cs.length - limit.natAbs else limit.natAbs
    String.ofList (cs.take kept) ++ "..."

namespace Value

/-- The uncut snapshot of a value. -/
def fullSnapshot (v : Value) : Except Obstacle String :=
  if v.holdsLongInteger then .error .longInteger else .ok (v.jsonText?.getD v.literal)

/-- The snapshot of a value, cut at a length if one is given. What is missing is never cut. -/
def snapshot (limit : Option Int) (v : Value) : Except Obstacle String :=
  match v, limit with
  | .missing, _ => .ok "<missing>"
  | v, none => v.fullSnapshot
  | v, some n => v.fullSnapshot.map (cutText n)

/-- A collection's snapshot after its number of entries. -/
def countedSnapshot (limit : Option Int) (count : Nat) (v : Value) : Except Obstacle String :=
  (v.snapshot limit).map (s!"count: {count} - " ++ ·)

end Value

end JsonExpect
