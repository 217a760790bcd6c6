import JsonExpect.Binary64.Shortest
import JsonExpect.Text.Digit
import JsonExpect.Text.Printable
import JsonExpect.Text.Surrogate
import JsonExpect.Value.Basic

/-!
# Values as literals

The literal notation is the one in which messages quote a raw value, JSON or not: `None`, `True`,
strings between single quotes, tuples between parentheses, bytes behind a `b`. `Value.display` is
the same except that a string outside any collection stands for itself. `Value.className` is the
name of the class that messages on wrong arguments give a value.
-/

namespace JsonExpect

/-- Doubles of the literal notation: those of JSON text with other names for what is not finite. -/
def literalDoubles : DecimalLayout := ⟨-4, 15, 2, "nan", "inf"⟩

/-- At least `width` hexadecimal digits. -/
def hexDigits (width n : Nat) : List Char :=
  let ds := Nat.toDigits 16 n
  List.replicate (width - ds.length) '0' ++ ds

/-- The written form of a character between the given quotes. -/
def literalChar (mark c : Char) : List Char :=
  if c = mark ∨ c = '\\' then ['\\', c]
  else if c = '\n' then ['\\', 'n']
  else if c = '\r' then ['\\', 'r']
  else if c = '\t' then ['\\', 't']
  else if isPrintable c then [c]
  else
    let n := codePoint c
    if n < 0x100 then '\\' :: 'x' :: hexDigits 2 n
    else if n < 0x10000 then '\\' :: 'u' :: hexDigits 4 n
    else '\\' :: 'U' :: hexDigits 8 n

/-- The quote around characters: a single one, unless it would have to be escaped and a double one
would not. -/
def literalMark (cs : List Char) : Char :=
  if '\'' ∈ cs ∧ '"' ∉ cs then '"' else '\''

/-- A string between quotes. -/
def literalString (s : String) : String :=
  let mark := literalMark s.toList
  String.ofList (mark :: s.toList.flatMap (literalChar mark) ++ [mark])

/-- The written form of a byte between the given quotes. -/
def literalByte (mark : Char) (b : UInt8) : List Char :=
  if b.toNat < 0x80 then literalChar mark (Char.ofNat b.toNat)
  else '\\' :: 'x' :: hexDigits 2 b.toNat

/-- Bytes between quotes. -/
def literalBytes (data : List UInt8) : String :=
  let mark := literalMark (data.map fun b => Char.ofNat b.toNat)
  String.ofList ('b' :: mark :: data.flatMap (literalByte mark) ++ [mark])

/-- A tuple of literals, with a comma behind the only one of a single item. -/
def tupleLiteral : List String → String
  | [t] => "(" ++ t ++ ",)"
  | ts => "(" ++ ", ".intercalate ts ++ ")"

mutual

/-- The literal notation of a member name. -/
def Key.literal : Key → String
  | .string s => literalString s
  | .int n => toString n
  | .bool b => if b then "True" else "False"
  | .float x => x.text literalDoubles
  | .null => "None"
  | .missing => "<missing>"
  | .bytes data => literalBytes data
  | .moment m => m.literal
  | .tuple items => tupleLiteral (Key.literals items)

/-- The literals of member names. -/
def Key.literals : List Key → List String
  | [] => []
  | k :: ks => Key.literal k :: Key.literals ks

end

mutual

/-- Whether an integer whose numeral would be too long stands in a member name. -/
def Key.holdsLongInteger : Key → Bool
  | .int n => hasLongNumeral n
  | .tuple items => Key.anyLongInteger items
  | _ => false

/-- Whether such an integer stands in one of some member names. -/
def Key.anyLongInteger : List Key → Bool
  | [] => false
  | k :: ks => Key.holdsLongInteger k || Key.anyLongInteger ks

end

/-- A member name as a text: a string stands for itself, and a moment is shown in full. -/
def Key.display : Key → String
  | .string s => s
  | .moment m => m.text
  | k => k.literal

namespace Value

mutual

/-- The literal notation of a value. -/
def literal : Value → String
  | .missing => "<missing>"
  | .null => "None"
  | .bool b => if b then "True" else "False"
  | .int n => toString n
  | .float x => x.text literalDoubles
  | .string s => literalString s
  | .array items => "[" ++ ", ".intercalate (itemLiterals items) ++ "]"
  | .object members => "\x7b" ++ ", ".intercalate (memberLiterals members) ++ "\x7d"
  | .tuple items => tupleLiteral (itemLiterals items)
  | .set [] => "set()"
  | .set items => "\x7b" ++ ", ".intercalate (Key.literals items) ++ "\x7d"
  | .moment m => m.literal
  | .bytes .fixed data => literalBytes data
  | .bytes .growable data => "bytearray(" ++ literalBytes data ++ ")"
  | .responder _ => "<object>"
  | .record _ => "<object>"

/-- The literals of items. -/
def itemLiterals : List Value → List String
  | [] => []
  | v :: vs => literal v :: itemLiterals vs

/-- The literals of members, each name before its value. -/
def memberLiterals : List (Key × Value) → List String
  | [] => []
  | (k, v) :: ms => (k.literal ++ ": " ++ literal v) :: memberLiterals ms

end

mutual

/-- Whether an integer whose numeral would be too long stands in a value. -/
def holdsLongInteger : Value → Bool
  | .int n => hasLongNumeral n
  | .array items => anyLongInteger items
  | .tuple items => anyLongInteger items
  | .set items => items.any Key.holdsLongInteger
  | .object members => memberLongInteger members
  | _ => false

/-- Whether such an integer stands in one of some items. -/
def anyLongInteger : List Value → Bool
  | [] => false
  | v :: vs => holdsLongInteger v || anyLongInteger vs

/-- Whether such an integer stands in one of some members. -/
def memberLongInteger : List (Key × Value) → Bool
  | [] => false
  | (k, v) :: ms => k.holdsLongInteger || holdsLongInteger v || memberLongInteger ms

end

/-- A value as a text: a string stands for itself, and a moment is shown in full. -/
def display : Value → String
  | .string s => s
  | .moment m => m.text
  | v => v.literal

/-- The name of a value's class. -/
def className : Value → String
  | .missing => "_Missing"
  | .null => "NoneType"
  | .bool _ => "bool"
  | .int _ => "int"
  | .float _ => "float"
  | .string _ => "str"
  | .array _ => "list"
  | .object _ => "dict"
  | .tuple _ => "tuple"
  | .set _ => "set"
  | .moment (.day _) => "date"
  | .moment (.time ..) => "datetime"
  | .bytes .fixed _ => "bytes"
  | .bytes .growable _ => "bytearray"
  | .responder _ => "object"
  | .record _ => "object"

/-- The name of a value's type: its kind, or its class where it has none. -/
def typeName (v : Value) : String :=
  match v with
  | .missing => "missing"
  | v => match v.kind? with
    | some k => k.name
    | none => v.className

end Value

end JsonExpect
