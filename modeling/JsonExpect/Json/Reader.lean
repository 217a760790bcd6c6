import JsonExpect.Json.Token

/-!
# Reading JSON text

The tokens of a text are read one by one against a stack of open collections. `Reading` says what
may come next; a step refuses every other token, so a text is accepted exactly when its tokens form
one value. A member name that is written twice keeps its first place and takes its last value.
-/

namespace JsonExpect.Json

/-- A collection that has been opened: what it holds so far, last first for arrays. -/
inductive Frame where
  | array (items : List Value)
  /-- An object, with the name that the value to come belongs to. -/
  | object (members : List (Key × Value)) (name : String)

/-- What the next token may be. -/
inductive Expecting where
  | value
  | itemOrEnd
  | nameOrEnd (members : List (Key × Value))
  | name (members : List (Key × Value))
  | colon
  | separator
  | finish (v : Value)

/-- The state of reading: what may come next, and the open collections from the inside out. -/
structure Reading where
  next : Expecting
  frames : List Frame

namespace Reading

/-- Puts a complete value where it belongs. -/
def complete (v : Value) : List Frame → Reading
  | [] => ⟨.finish v, []⟩
  | .array items :: frames => ⟨.separator, .array (v :: items) :: frames⟩
  | .object members name :: frames =>
    ⟨.separator, .object (putMember (.string name) v members) name :: frames⟩

/-- The first token of a value. -/
def begin (frames : List Frame) : Token → Option Reading
  | .openArray => some ⟨.itemOrEnd, .array [] :: frames⟩
  | .openObject => some ⟨.nameOrEnd [], frames⟩
  | .scalar v => some (complete v frames)
  | _ => none

/-- The name of the next member. -/
def beginMember (members : List (Key × Value)) (frames : List Frame) : Token → Option Reading
  | .scalar (.string name) => some ⟨.colon, .object members name :: frames⟩
  | _ => none

/-- Reads one token. -/
def step (r : Reading) (t : Token) : Option Reading :=
  match r.next, r.frames, t with
  | .value, frames, t => begin frames t
  | .itemOrEnd, .array items :: frames, .closeArray => some (complete (.array items.reverse) frames)
  | .itemOrEnd, frames, t => begin frames t
  | .nameOrEnd members, frames, .closeObject => some (complete (.object members) frames)
  | .nameOrEnd members, frames, t => beginMember members frames t
  | .name members, frames, t => beginMember members frames t
  | .colon, frames, .colon => some ⟨.value, frames⟩
  | .separator, .array items :: frames, .comma => some ⟨.value, .array items :: frames⟩
  | .separator, .array items :: frames, .closeArray => some (complete (.array items.reverse) frames)
  | .separator, .object members _ :: frames, .comma => some ⟨.name members, frames⟩
  | .separator, .object members _ :: frames, .closeObject =>
    some (complete (.object members) frames)
  | _, _, _ => none

/-- Reads tokens in turn. -/
def run : Reading → List Token → Option Reading
  | r, [] => some r
  | r, t :: ts => (r.step t).bind fun r => r.run ts

end Reading

/-- The value that tokens form. -/
def ofTokens? (ts : List Token) : Option Value :=
  match Reading.run ⟨.value, []⟩ ts with
  | some ⟨.finish v, _⟩ => some v
  | _ => none

/-- The value that a text writes. -/
def read? (d : Dialect) (text : String) : Option Value :=
  (tokens? d text.toList).bind ofTokens?

end JsonExpect.Json
