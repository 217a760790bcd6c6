import JsonExpect.Yaml.Fault
import JsonExpect.Yaml.Folded

/-!
# Scalars kept by lines

Behind a bar or an angle, text follows on lines of its own, which are indented alike. Behind a bar
every line break counts; behind an angle lines of text are folded into one, but not those that begin
with a blank. How the text is indented and what becomes of the line breaks at its end may be told on
the first line.
-/

namespace JsonExpect.Yaml

/-- What becomes of the line breaks at the end: the first is kept, none, or all of them. -/
inductive Chomping where
  | clip
  | strip
  | keep
deriving DecidableEq, Repr

/-- What is told behind the mark of a scalar: what becomes of the end, and by how much more than the
collection around it the text is indented. -/
structure VerbatimHeader where
  chomping : Chomping := .clip
  increment : Option Nat := none
deriving DecidableEq, Repr

/-- The chomping at a place, if one is told. -/
def chompingAt? (k : Cursor) : Option (Chomping × Cursor) :=
  match k.rest with
  | '+' :: _ => some (.keep, k.drop 1)
  | '-' :: _ => some (.strip, k.drop 1)
  | _ => none

/-- The increment at a place, if one is told; it must not be zero. -/
def incrementAt (k : Cursor) : Except Fault (Option Nat × Cursor) :=
  match k.rest with
  | c :: _ =>
    if c = '0' then .error .malformed
    else if c.isDigit then .ok (some (c.toNat - '0'.toNat), k.drop 1)
    else .ok (none, k)
  | [] => .ok (none, k)

/-- The header at a place, in either order, and the place behind its line. -/
def verbatimHeader (k : Cursor) : Except Fault (VerbatimHeader × Cursor) := do
  let (header, k) ← match chompingAt? k with
    | some (chomping, k) => do
      let (increment, k) ← incrementAt k
      pure ({ chomping, increment : VerbatimHeader }, k)
    | none => do
      let (increment, k) ← incrementAt k
      match increment.bind fun _ => chompingAt? k with
      | some (chomping, k) => pure ({ chomping, increment : VerbatimHeader }, k)
      | none => pure ({ increment : VerbatimHeader }, k)
  if endsPart k.rest then
    match k.endLine? with
    | some k => return (header, k)
    | none => throw .malformed
  else throw .malformed

/-- The line breaks before the text, the deepest column that the spaces among them reach, and the
place of the text. -/
def leadingBreaks (breaks : List Char) (deepest : Nat) (p : Position) :
    List Char → List Char × Nat × Cursor
  | [] => (breaks.reverse, deepest, ⟨[], p⟩)
  | c :: cs =>
    let q := p.after c
    if c = ' ' then leadingBreaks breaks (max deepest q.column) q cs
    else if isBreak c then leadingBreaks (breakChar c :: breaks) deepest q cs
    else (breaks.reverse, deepest, ⟨c :: cs, p⟩)

/-- The line breaks before the next line of text, and the place of that line, its indentation left
out up to a depth. -/
def nextBreaks (indent : Nat) (breaks : List Char) (p : Position) :
    List Char → List Char × Cursor
  | [] => (breaks.reverse, ⟨[], p⟩)
  | c :: cs =>
    if c = ' ' ∧ p.column < indent then nextBreaks indent breaks (p.after c) cs
    else if isBreak c then nextBreaks indent (breakChar c :: breaks) (p.after c) cs
    else (breaks.reverse, ⟨c :: cs, p⟩)

/-- Whether a line of text begins with something else than a blank. -/
def beginsFirmly (cs : List Char) : Bool := cs.head?.any fun c => c ≠ ' ' && c ≠ '\t'

/-- What stands for the end of a line before another one: nothing where the line is folded and line
breaks follow. -/
def lineGlue (folded : Bool) (first next : List Char) (ending : Option Char)
    (breaks : List Char) : List Char :=
  if folded && ending = some '\n' && beginsFirmly first && beginsFirmly next then
    if breaks.isEmpty then [' '] else []
  else ending.toList

/-- Lines of text that are indented by `indent`, after what is `done`, which holds pieces from last
to first. It comes with the end of the last line, the line breaks below it and the place behind. -/
def verbatimLines (folded : Bool) (indent : Nat) :
    Nat → List (List Char) → List Char → Cursor →
      List (List Char) × Option Char × List Char × Cursor
  | 0, done, breaks, k => (done, none, breaks, k)
  | fuel + 1, done, breaks, k =>
    if k.column = indent ∧ k.rest ≠ [] then
      let (line, ended) := k.span (!isBreak ·)
      let (ending, after) := ended.takeBreak
      let (more, next) := nextBreaks indent [] after.position after.rest
      let done := line :: breaks :: done
      if next.column = indent ∧ next.rest ≠ [] then
        verbatimLines folded indent fuel
          (lineGlue folded k.rest next.rest ending more :: done) more next
      else (done, ending, more, next)
    else (done, none, breaks, k)

/-- The scalar behind a mark in a collection that is indented by `outer`, and the place behind it.
Without a word on it, the text is indented like its first line. -/
def verbatimScalar (folded : Bool) (outer : Int) (k : Cursor) :
    Except Fault (List Char × Cursor) := do
  let (header, k) ← verbatimHeader k
  let least := max 1 (outer + 1).toNat
  let (indent, breaks, k) := match header.increment with
    | some n =>
      let (breaks, k) := nextBreaks (least + n - 1) [] k.position k.rest
      (least + n - 1, breaks, k)
    | none =>
      let (breaks, deepest, k) := leadingBreaks [] 0 k.position k.rest
      (max least deepest, breaks, k)
  let (done, ending, breaks, k) := verbatimLines folded indent (k.rest.length + 1) [] breaks k
  let tail := match header.chomping with
    | .strip => []
    | .clip => ending.toList
    | .keep => ending.toList ++ breaks
  return (done.reverse.flatten ++ tail, k)

end JsonExpect.Yaml
