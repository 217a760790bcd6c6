import JsonExpect.Text.Digit
import JsonExpect.Value.Literal

/-!
# Locations in a document

A `Location` is the sequence of object keys and array indices that leads to a value. Its text joins
keys by dots, escapes the dots inside them, shows an empty key as two quotes and puts indices in
brackets. A key that is neither a string nor an integer cannot be written: it is an `Obstacle`. So
is an integer of too many digits, wherever it has to be written; as a key it never gets into a
location of a failure, being met before, where the options of what it leads to are looked up.
-/

namespace JsonExpect

/-- The keys and indices on the way to a value. An index is an integer key. -/
abbrev Location := List Key

/-- A backslash before every dot. -/
def escapeDots (name : List Char) : List Char :=
  name.flatMap fun c => if c = '.' then ['\\', '.'] else [c]

/-- Whether a key is written in brackets. -/
def Key.isIndex : Key → Bool
  | .int _ | .bool _ => true
  | _ => false

/-- The written form of a key in a location, without a dot before it. -/
def Key.stepChars : Key → List Char
  | .string s => if s.toList = [] then ['"', '"'] else escapeDots s.toList
  | k => '[' :: k.literal.toList ++ [']']

/-- Whether a key has a written form in a location. -/
def Key.isWritable : Key → Bool
  | .string _ | .int _ | .bool _ => true
  | _ => false

/-- What keeps a failure from being written down. -/
inductive Obstacle where
  /-- A key that has no written form. -/
  | key (k : Key)
  /-- An integer whose numeral would have too many digits. -/
  | longInteger
deriving DecidableEq, Repr

/-- What is met where options are looked up under a key: they are filed under its text. -/
def Key.obstacle? (k : Key) : Option Obstacle :=
  if k.holdsLongInteger then some .longInteger else none

def Obstacle.message : Obstacle → String
  | .key (.bytes _) => "a bytes-like object is required, not 'str'"
  | .key (.tuple items) =>
    if .string "." ∈ items then "'tuple' object has no attribute 'replace'"
    else "can only concatenate str (not \"tuple\") to str"
  | .key k => "argument of type '" ++ k.value.className ++ "' is not iterable"
  | .longInteger => longIntegerMessage

namespace Location

/-- The written form of the keys that follow the first. -/
def charsAfter : List Key → List Char
  | [] => []
  | k :: ks => (if k.isIndex then k.stepChars else '.' :: k.stepChars) ++ charsAfter ks

/-- The written form of a location. -/
def chars : List Key → List Char
  | [] => []
  | k :: ks => k.stepChars ++ charsAfter ks

/-- The text of a location. -/
def text (l : Location) : String := String.ofList (chars l)

/-- The first key of a location that cannot be written. -/
def obstacle? (l : Location) : Option Obstacle := (l.find? fun k => !k.isWritable).map .key

end Location

end JsonExpect
