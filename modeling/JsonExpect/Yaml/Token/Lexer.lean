import JsonExpect.Yaml.Plain
import JsonExpect.Yaml.Quoted
import JsonExpect.Yaml.Token.Basic
import JsonExpect.Yaml.Verbatim

/-!
# Cutting a document into tokens

Whether a node is the name of a member shows only at the colon behind it. So the `Lexer` remembers
for each open bracket where the last node began that may be one, and puts the token of a name there
once it meets the colon. Such a node must be followed by its colon on the same line and within 1024
characters; where a node of the collection in block begins a line, it has to be a name.
-/

namespace JsonExpect.Yaml

/-- A node that may turn out to be the name of a member. -/
structure NameSpot where
  /-- The number of tokens before the node. -/
  tokens : Nat
  /-- Whether the node has to be a name. -/
  required : Bool
  position : Position
deriving DecidableEq, Repr

/-- What has been read of a document. -/
structure Lexer where
  cursor : Cursor
  /-- The tokens so far, last first. -/
  done : List Token := []
  /-- The number of those tokens. -/
  count : Nat := 0
  /-- The indentation of the innermost collection in block, -1 outside of any. -/
  indent : Int := -1
  /-- The indentations of the collections around it, from the inside out. -/
  outer : List Int := []
  /-- Whether a name may begin here. -/
  allowsName : Bool := true
  /-- The node that may be a name, outside of all brackets opened here. -/
  spot : Option NameSpot := none
  /-- The same for each open bracket but the last, from the inside out, where it stands. -/
  outerSpots : List (Option NameSpot) := []
deriving Inhabited

namespace Lexer

/-- Whether the lexer is between brackets. -/
def inFlow (s : Lexer) : Bool := !s.outerSpots.isEmpty

/-- Adds a token. -/
def push (s : Lexer) (t : Token) : Lexer :=
  { s with done := t :: s.done, count := s.count + 1 }

/-- Puts a token behind the first `n` ones. -/
def insert (s : Lexer) (n : Nat) (t : Token) : Lexer :=
  let later := s.count - n
  { s with done := s.done.take later ++ t :: s.done.drop later, count := s.count + 1 }

/-- Whether a spot is too far away for its colon. -/
def isPast (k : Cursor) (spot : NameSpot) : Bool :=
  spot.position.line ≠ k.position.line || 1024 < k.position.index - spot.position.index

/-- A spot if it can still be a name. One that has to be must not be given up. -/
def freshSpot (k : Cursor) (spot : Option NameSpot) : Except Fault (Option NameSpot) :=
  match spot with
  | none => .ok none
  | some n =>
    if !isPast k n then .ok (some n)
    else if n.required then .error .malformed
    else .ok none

/-- The spots that can still be names. -/
def freshen (s : Lexer) : Except Fault Lexer := do
  let outerSpots ← s.outerSpots.mapM (freshSpot s.cursor)
  let spot ← freshSpot s.cursor s.spot
  return { s with spot, outerSpots }

/-- Gives up the last spot. -/
def dropSpot (s : Lexer) : Except Fault Lexer :=
  if s.spot.any (·.required) then .error .malformed else .ok { s with spot := none }

/-- Remembers that the node which begins here may be a name, if it may. -/
def markSpot (s : Lexer) : Except Fault Lexer :=
  if s.allowsName then do
    let s ← s.dropSpot
    let required := !s.inFlow && s.indent = s.cursor.column
    return { s with spot := some ⟨s.count, required, s.cursor.position⟩ }
  else .ok s

/-- Ends the collections in block that are indented by more than a column. -/
def unwind (column : Int) (s : Lexer) : Lexer :=
  if s.inFlow then s
  else
    let ended := (s.indent :: s.outer).takeWhile (column < ·)
    match (s.indent :: s.outer).dropWhile (column < ·) with
    | [] => s
    | indent :: outer =>
      { s with
        indent, outer
        done := ended.map (fun _ => .finish) ++ s.done
        count := s.count + ended.length }

/-- Makes a column the indentation of a collection in block that begins there. -/
def beginBlock (column : Nat) (at? : Option Nat) (t : Token) (s : Lexer) : Lexer :=
  if s.indent < column then
    let s := { s with outer := s.indent :: s.outer, indent := column }
    match at? with
    | some n => s.insert n t
    | none => s.push t
  else s

/-- Moves on to the next content. Behind the end of a line a name may begin, between brackets only
where it could before. -/
def skipBlank (s : Lexer) : Nat → Lexer
  | 0 => s
  | fuel + 1 =>
    let k := (s.cursor.skip (· = ' ')).skipComment
    match k.takeBreak with
    | (some _, k) => skipBlank { s with cursor := k, allowsName := s.allowsName || !s.inFlow } fuel
    | (none, k) => { s with cursor := k }

/-- Adds the token of the next `n` characters. -/
def take (s : Lexer) (n : Nat) (t : Token) : Lexer :=
  { s.push t with cursor := s.cursor.drop n }

/-- A mark around documents, or a directive, stands for itself: no name begins there. -/
def betweenDocuments (s : Lexer) : Except Fault Lexer := do
  let s ← (s.unwind (-1)).dropSpot
  return { s with allowsName := false }

/-- An opening bracket. -/
def openFlow (s : Lexer) (t : Token) : Except Fault Lexer := do
  let s ← s.markSpot
  return { s.take 1 t with allowsName := true, spot := none, outerSpots := s.spot :: s.outerSpots }

/-- A closing bracket, which needs an open one. -/
def closeFlow (s : Lexer) (t : Token) : Except Fault Lexer := do
  let s ← s.dropSpot
  match s.outerSpots with
  | spot :: outerSpots => return { s.take 1 t with allowsName := false, spot, outerSpots }
  | [] => throw .malformed

/-- A dash before an item. -/
def dash (s : Lexer) : Except Fault Lexer := do
  if !s.inFlow && !s.allowsName then throw .malformed
  let s := if s.inFlow then s else s.beginBlock s.cursor.column none .beginItems
  let s ← { s with allowsName := true }.dropSpot
  return s.take 1 .dash

/-- A question mark before a name. -/
def question (s : Lexer) : Except Fault Lexer := do
  if !s.inFlow && !s.allowsName then throw .malformed
  let s := if s.inFlow then s else s.beginBlock s.cursor.column none .beginMembers
  let s ← { s with allowsName := !s.inFlow }.dropSpot
  return s.take 1 .name

/-- A colon before a value. If a node stands before it that may be a name, it is one. -/
def colon (s : Lexer) : Except Fault Lexer :=
  match s.spot with
  | some spot =>
    let s := { s with spot := none, allowsName := false }.insert spot.tokens .name
    let s := if s.inFlow then s
      else s.beginBlock spot.position.column (some spot.tokens) .beginMembers
    .ok (s.take 1 .value)
  | none =>
    if !s.inFlow && !s.allowsName then .error .malformed
    else
      let s := if s.inFlow then s else s.beginBlock s.cursor.column none .beginMembers
      .ok ({ s with allowsName := !s.inFlow }.take 1 .value)

/-- A node that may be a name, read at its place. -/
def node (s : Lexer) (read : Cursor → Except Fault (Token × Cursor)) : Except Fault Lexer := do
  let s ← s.markSpot
  let (t, cursor) ← read s.cursor
  return { s.push t with cursor, allowsName := false }

/-- A plain scalar. A name may begin behind it if it ends with its line. -/
def plain (s : Lexer) : Except Fault Lexer := do
  let s ← s.markSpot
  let (f, cursor) :=
    plainScalar s.inFlow (s.indent + 1).toNat {} s.cursor.position s.cursor.rest
  return { s.push (.scalar true f.text) with cursor, allowsName := !f.breaks.isEmpty }

/-- A scalar kept by lines. A name may begin behind it. -/
def verbatim (s : Lexer) (folded : Bool) : Except Fault Lexer := do
  let s ← { s with allowsName := true }.dropSpot
  let (text, cursor) ← verbatimScalar folded s.indent (s.cursor.drop 1)
  return { s.push (.scalar false text) with cursor }

/-- Reads the token that begins with `c` before `cs`. -/
def token (s : Lexer) (c : Char) (cs : List Char) : Except Fault Lexer :=
  let atStart := s.cursor.column = 0
  if c = '%' ∧ atStart then do
    let s ← s.betweenDocuments
    let (d, cursor) ← directiveAt s.cursor
    return { s.push (.directive d) with cursor }
  else if atStart ∧ isMark (c :: cs) then do
    let s ← s.betweenDocuments
    return s.take 3 (if c = '-' then .documentStart else .documentEnd)
  else if c = '[' then s.openFlow .openItems
  else if c = '{' then s.openFlow .openMembers
  else if c = ']' then s.closeFlow .closeItems
  else if c = '}' then s.closeFlow .closeMembers
  else if c = ',' then do
    let s ← { s with allowsName := true }.dropSpot
    return s.take 1 .comma
  else if c = '-' ∧ endsWord cs then s.dash
  else if c = '?' ∧ (s.inFlow ∨ endsWord cs) then s.question
  else if c = ':' ∧ (s.inFlow ∨ endsWord cs) then s.colon
  else if c = '*' then s.node fun k => (anchorName k).map fun r => (.alias r.1, r.2)
  else if c = '&' then s.node fun k => (anchorName k).map fun r => (.anchor r.1, r.2)
  else if c = '!' then s.node fun k => (tagAt k).map fun r => (.tag r.1, r.2)
  else if c = '|' ∧ !s.inFlow then s.verbatim false
  else if c = '>' ∧ !s.inFlow then s.verbatim true
  else if c = '\'' ∨ c = '"' then
    s.node fun k => (quotedScalar k).map fun r => (.scalar false r.1, r.2)
  else if beginsPlain s.inFlow c cs then s.plain
  else .error .malformed

/-- Reads the next token and what comes with it, or finds the end of the text. -/
def step (s : Lexer) : Except Fault (Lexer × Bool) := do
  let s ← (s.skipBlank (s.cursor.rest.length + 1)).freshen
  let s := s.unwind s.cursor.column
  match s.cursor.rest with
  | [] => do
    let s ← (s.unwind (-1)).dropSpot
    return (s.push .textEnd, true)
  | c :: cs => return (← s.token c cs, false)

/-- The tokens where reading breaks off: nothing behind a node counts as long as it may be a name.
-/
def broken (s : Lexer) (f : Fault) : List Token :=
  let spots := (s.spot :: s.outerSpots).filterMap fun spot => spot.map (·.tokens)
  (s.done.drop (s.count - spots.foldl min s.count)).reverse ++ [.fault f]

/-- The tokens of a text. -/
def run : Nat → Lexer → List Token
  | 0, s => s.broken .malformed
  | fuel + 1, s =>
    match s.freshen with
    | .error f => s.broken f
    | .ok s =>
      match s.step with
      | .error f => s.broken f
      | .ok (s, true) => s.done.reverse
      | .ok (s, false) => run fuel s

end Lexer

/-- The tokens of a text. A mark of the byte order in front does not count. -/
def tokens (cs : List Char) : List Token :=
  let start : Cursor := ⟨cs, {}⟩
  let cursor := if cs.head? = some '\ufeff' then start.drop 1 else start
  Lexer.run (cs.length + 2) { cursor }

end JsonExpect.Yaml
