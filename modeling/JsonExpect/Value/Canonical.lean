import JsonExpect.Json.Reader
import JsonExpect.Text.Digit
import JsonExpect.Value.Literal

/-!
# Canonical form

`Value.toCanonical` turns raw input into the JSON value that is compared. Text and bytes are read as
JSON text, and stand for themselves as a string when they are none; tuples become arrays; an object
that carries a document yields its document. What cannot be converted, at any depth, makes the whole
input missing. Inside a document nothing is read: a nested string stays a string, a null stays a
null. A conversion may also break off: where an attribute that is asked for cannot be read, and
where a name that is no string has to be quoted and cannot be.
-/

namespace JsonExpect

/-- Document text: no constants beyond the standard, integers of at most 4300 digits. -/
def Json.documentDialect : Json.Dialect := { digitLimit := some longestNumeral }

/-- The value that a text stands for: what it writes, or else the text itself. -/
def Value.ofText (text : String) : Value :=
  (Json.read? Json.documentDialect text).getD (.string text)

/-- The value that bytes stand for as UTF-8 text; bytes that are no such text stand for nothing. -/
def Value.ofBytes (data : List UInt8) : Value :=
  match String.fromUTF8? ⟨data.toArray⟩ with
  | some text => .ofText text
  | none => .missing

/-- Why a conversion breaks off. -/
inductive ConversionFault where
  /-- A name that has to be quoted holds an integer of too many digits. -/
  | longInteger
  /-- An attribute that is asked for cannot be read. -/
  | unreadable (name : String)
deriving DecidableEq, Repr

def ConversionFault.message : ConversionFault → String
  | .longInteger => longIntegerMessage
  | .unreadable name => "attribute " ++ name ++ " cannot be read"

/-- What ends a conversion before there is a canonical form. -/
inductive ConversionStop where
  /-- Something has no canonical form. -/
  | unconvertible
  | fault (e : ConversionFault)
deriving DecidableEq, Repr

/-- What a conversion ends with at a name that is no string. -/
def Key.conversionStop (k : Key) : ConversionStop :=
  if k.holdsLongInteger then .fault .longInteger else .unconvertible

namespace Value

mutual

/-- The canonical form of a value inside a document. -/
def nestedCanonical : Value → Except ConversionStop Value
  | .array items => do return .array (← itemsCanonical items)
  | .tuple items => do return .array (← itemsCanonical items)
  | .object members => do return .object (← membersCanonical members)
  | .null => .ok .null
  | .bool b => .ok (.bool b)
  | .int n => .ok (.int n)
  | .float x => .ok (.float x)
  | .string s => .ok (.string s)
  | _ => .error .unconvertible

/-- The canonical forms of items, up to the first that has none. -/
def itemsCanonical : List Value → Except ConversionStop (List Value)
  | [] => .ok []
  | v :: vs => do
    let c ← nestedCanonical v
    let cs ← itemsCanonical vs
    return c :: cs

/-- The members in canonical form, up to the first that has none. A name is looked at before its
value. -/
def membersCanonical : List (Key × Value) → Except ConversionStop (List (Key × Value))
  | [] => .ok []
  | (.string name, v) :: ms => do
    let c ← nestedCanonical v
    let cs ← membersCanonical ms
    return (.string name, c) :: cs
  | (k, _) :: _ => .error k.conversionStop

end

/-- What becomes of an input by a conversion: what has no canonical form counts as missing. -/
def orMissing : Except ConversionStop Value → Except ConversionFault Value
  | .ok c => .ok c
  | .error .unconvertible => .ok .missing
  | .error (.fault e) => .error e

mutual

/-- The canonical form of an input. -/
def toCanonical : Value → Except ConversionFault Value
  | .missing => .ok .missing
  | .null => .ok .missing
  | .string text => .ok (.ofText text)
  | .bytes _ data => .ok (.ofBytes data)
  | .responder none => .ok .missing
  | .responder (some reply) => toCanonical reply
  | .record attributes =>
    -- Only a call could answer under this name, but it is asked for before the other two.
    match attributes.lookup "json" with
    | some none => .error (.unreadable "json")
    | _ =>
      (attributeCanonical? "payload" attributes <|>
        attributeCanonical? "body" attributes).getD (.ok .missing)
  | v => orMissing (nestedCanonical v)

/-- The canonical form of the attribute of a name, if it is there and not null. -/
def attributeCanonical? (name : String) :
    List (String × Option Value) → Option (Except ConversionFault Value)
  | [] => none
  | (n, none) :: rest =>
    if n = name then some (.error (.unreadable name)) else attributeCanonical? name rest
  | (n, some v) :: rest =>
    if n = name then if v.isNull then none else some (toCanonical v)
    else attributeCanonical? name rest

end

end Value

end JsonExpect
