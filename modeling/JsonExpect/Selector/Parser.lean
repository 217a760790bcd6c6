import JsonExpect.Selector.Basic
import JsonExpect.Selector.Token

/-!
# Reading selectors

A selector is written as steps with operators between them: a dot for what is inside, two dots for
what is anywhere inside, a bar for a choice, and two words for filters. Of two operators the one
that holds more closely is worked out first, of two equal ones the left one, and brackets behind a
step apply to everything before them. The words are read one by one, so the first one that does not
fit decides what is wrong.
-/

namespace JsonExpect.Selector

/-- Why a text is no selector. -/
inductive ParseFault where
  | malformed
  | longNumeral (digits : Nat)
deriving DecidableEq, Repr

/-- What stands before a step: selectors with an operator behind each, the last one first. -/
abbrev Pending := List (Selector × Operator)

/-- What brackets hold so far. -/
inductive Bracket where
  | nothing
  /-- Names, and whether another one must follow. -/
  | names (done : List String) (wanting : Bool)
  /-- Positions, and whether another one must follow. -/
  | positions (done : List Int) (wanting : Bool)
  /-- The bounds of a slice before the last colon, and the one behind it. -/
  | bounds (done : List (Option Int)) (last : Option Int)
  | all

/-- Where reading stands. -/
inductive Expecting where
  /-- A step has to begin. -/
  | step
  /-- A selector is complete, and may go on. -/
  | done (s : Selector)
  /-- Names are complete, and more may follow. -/
  | names (done : List String)
  /-- A comma has been read behind names. -/
  | nextName (done : List String)
  /-- Brackets are open, behind a selector if there is one. -/
  | bracket (before : Option Selector) (b : Bracket)

/-- The state of reading: what may come next, what stands before it, and what stands before each
open group around it. -/
structure Parsing where
  expecting : Expecting := .step
  pending : Pending := []
  groups : List Pending := []

/-- Two selectors with an operator between them. -/
def Operator.join (first : Selector) (o : Operator) (second : Selector) : Selector :=
  match o with
  | .descent => .descent first second
  | .next => .next first second
  | .union => .union first second
  | .both => .both first second
  | .having => .filter true first second
  | .lacking => .filter false first second

/-- Joins a selector with those before it whose operators hold as closely as `strength` says. -/
def joinPending (strength : Nat) (s : Selector) : Pending → Selector × Pending
  | [] => (s, [])
  | (first, o) :: pending =>
    if strength ≤ o.strength then joinPending strength (o.join first s) pending
    else (s, (first, o) :: pending)

namespace Bracket

/-- The bracket with another word in it. -/
def push (b : Bracket) (t : Token) : Option Bracket :=
  match b, t with
  | .nothing, .name s => some (.names [s] false)
  | .nothing, .number n => some (.positions [n] false)
  | .nothing, .colon => some (.bounds [none] none)
  | .nothing, .asterisk => some .all
  | .names done false, .comma => some (.names done true)
  | .names done true, .name s => some (.names (done ++ [s]) false)
  | .positions [n] false, .colon => some (.bounds [some n] none)
  | .positions done false, .comma => some (.positions done true)
  | .positions done true, .number n => some (.positions (done ++ [n]) false)
  | .bounds done none, .number n => some (.bounds done (some n))
  | .bounds [start] last, .colon => some (.bounds [start, last] none)
  | _, _ => none

/-- The step that closed brackets are. -/
def close? : Bracket → Option Selector
  | .names done false => some (.members done)
  | .positions done false => some (.elements done)
  | .bounds [start] last => some (.slice start last none)
  | .bounds [start, stop] last => some (.slice start stop last)
  | .all => some (.slice none none none)
  | _ => none

end Bracket

namespace Parsing

/-- Reads a word behind a complete selector. -/
def stepBehind (p : Parsing) (s : Selector) (t : Token) : Option Parsing :=
  match t with
  | .operator o =>
    let (s, pending) := joinPending o.strength s p.pending
    some { p with expecting := .step, pending := (s, o) :: pending }
  | .openBracket =>
    let s := (joinPending 0 s p.pending).1
    some { p with expecting := .bracket (some s) .nothing, pending := [] }
  | .closeGroup =>
    match p.groups with
    | [] => none
    | pending :: groups =>
      let s := (joinPending 0 s p.pending).1
      some { expecting := .done s, pending, groups }
  | _ => none

/-- Reads the first word of a step. -/
def begin (p : Parsing) (t : Token) : Option Parsing :=
  match t with
  | .name s => some { p with expecting := .names [s] }
  | .asterisk => some { p with expecting := .done (.members ["*"]) }
  | .number n => some { p with expecting := .done (.members [toString n]) }
  | .root => some { p with expecting := .done .root }
  | .quotedOperator "this" => some { p with expecting := .done .self }
  | .quotedOperator "parent" => some { p with expecting := .done .holder }
  | .openBracket => some { p with expecting := .bracket none .nothing }
  | .openGroup => some { expecting := .step, pending := [], groups := p.pending :: p.groups }
  | _ => none

/-- Reads a word, if it fits. -/
def step? (p : Parsing) (t : Token) : Option Parsing :=
  match p.expecting with
  | .step => p.begin t
  | .done s => p.stepBehind s t
  | .names done =>
    if t = .comma then some { p with expecting := .nextName done }
    else p.stepBehind (.members done) t
  | .nextName done =>
    match t with
    | .name s => some { p with expecting := .names (done ++ [s]) }
    | _ => none
  | .bracket before b =>
    if t = .closeBracket then
      b.close?.map fun s =>
        { p with expecting := .done (before.elim s fun first => .next first s) }
    else (b.push t).map fun b => { p with expecting := .bracket before b }

/-- Reads words in turn. A number that is too long is found out before it is seen whether it fits.
-/
def run (p : Parsing) : List Token → Except ParseFault Parsing
  | [] => .ok p
  | .longNumber digits :: _ => .error (.longNumeral digits)
  | t :: ts =>
    match p.step? t with
    | some p => p.run ts
    | none => .error .malformed

/-- The selector that has been read, if it is complete. -/
def finish? (p : Parsing) : Option Selector :=
  match p.groups, p.expecting with
  | [], .done s => some (joinPending 0 s p.pending).1
  | [], .names done => some (joinPending 0 (.members done) p.pending).1
  | _, _ => none

end Parsing

/-- The selector that a text writes. -/
def parse (text : String) : Except ParseFault Selector :=
  match ({} : Parsing).run (tokens text.toList) with
  | .error f => .error f
  | .ok p =>
    match p.finish? with
    | some s => .ok s
    | none => .error .malformed

end JsonExpect.Selector
