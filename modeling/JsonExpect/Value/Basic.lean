import JsonExpect.Binary64.Basic
import JsonExpect.Value.Moment

/-!
# Values

A `Value` is anything that may be offered as a document or stand inside one. The JSON values are the
canonical part of it; beside them stand the things that only raw input can hold: an absent value,
bytes, tuples, sets, moments, and objects that carry a document as a payload. Members of an object
keep the order in which they were written, and their names may be other scalars than strings until
the value is made canonical. `Kind` classifies the JSON values; all else has no kind.
-/

namespace JsonExpect

/-- The name of a member of an object: anything that cannot change. -/
inductive Key where
  | string (s : String)
  | int (n : Int)
  | bool (b : Bool)
  | float (x : Binary64)
  | null
  | missing
  | bytes (data : List UInt8)
  | moment (m : Moment)
  | tuple (items : List Key)
deriving Repr, Inhabited

namespace Key

mutual

/-- Decides whether two names are written alike. -/
def decEq (k l : Key) : Decidable (k = l) :=
  if h : k.ctorIdx = l.ctorIdx then
    match k, l, h with
    | .string a, .string b, _ => decidable_of_iff (a = b) (by simp)
    | .int a, .int b, _ => decidable_of_iff (a = b) (by simp)
    | .bool a, .bool b, _ => decidable_of_iff (a = b) (by simp)
    | .float a, .float b, _ => decidable_of_iff (a = b) (by simp)
    | .null, .null, _ => isTrue rfl
    | .missing, .missing, _ => isTrue rfl
    | .bytes a, .bytes b, _ => decidable_of_iff (a = b) (by simp)
    | .moment a, .moment b, _ => decidable_of_iff (a = b) (by simp)
    | .tuple a, .tuple b, _ =>
      have := decEqAll a b
      decidable_of_iff (a = b) (by simp)
  else isFalse fun e => h (e ▸ rfl)

/-- Decides whether two lists of names are written alike. -/
def decEqAll (ks ls : List Key) : Decidable (ks = ls) :=
  match ks, ls with
  | [], [] => isTrue rfl
  | k :: ks, l :: ls =>
    have := decEq k l
    have := decEqAll ks ls
    decidable_of_iff (k = l ∧ ks = ls) (by simp)
  | [], _ :: _ => isFalse nofun
  | _ :: _, [] => isFalse nofun

end

instance : DecidableEq Key := decEq

/-- The integer that a name counts as: truth values count as one and zero. -/
def toInt? : Key → Option Int
  | .int n => some n
  | .bool b => some (if b then 1 else 0)
  | _ => none

mutual

/-- Whether two names address the same member: numbers and truth values by their number, moments
when they fall together, tuples by their items, all else when equal. -/
def same : Key → Key → Bool
  | .string s, .string t => s == t
  | .null, .null => true
  | .missing, .missing => true
  | .bytes a, .bytes b => a == b
  | .moment m, .moment n => m.same n
  | .tuple ks, .tuple ls => sameAll ks ls
  | .float x, .float y => x.same y
  | .float x, k => k.toInt?.any x.isInt
  | k, .float y => k.toInt?.any y.isInt
  | k, l => k.toInt?.any fun m => l.toInt?.any fun n => m == n

/-- Whether the items of two tuples are the same in turn. -/
def sameAll : List Key → List Key → Bool
  | [], [] => true
  | k :: ks, l :: ls => same k l && sameAll ks ls
  | _, _ => false

end

end Key

/-- Whether a run of bytes can still grow. -/
inductive ByteForm where
  | fixed
  | growable
deriving DecidableEq, Repr

/-- A document, or anything offered in place of one. -/
inductive Value where
  /-- No value at all, as opposed to a JSON null. -/
  | missing
  | null
  | bool (b : Bool)
  | int (n : Int)
  | float (x : Binary64)
  | string (s : String)
  | array (items : List Value)
  | object (members : List (Key × Value))
  | tuple (items : List Value)
  | set (items : List Key)
  | moment (m : Moment)
  | bytes (form : ByteForm) (data : List UInt8)
  /-- An object that answers a request for its document with `reply`, or fails to. -/
  | responder (reply : Option Value)
  /-- An object with named attributes. Some attributes cannot be read. -/
  | record (attributes : List (String × Option Value))
deriving Inhabited

/-- The kinds of JSON values. Integers and other numbers are kinds of their own. -/
inductive Kind where
  | null
  | boolean
  | integer
  | number
  | string
  | array
  | object
deriving DecidableEq, Repr

def Kind.name : Kind → String
  | .null => "null"
  | .boolean => "boolean"
  | .integer => "integer"
  | .number => "number"
  | .string => "string"
  | .array => "array"
  | .object => "object"

/-- The value of the member that `k` addresses. -/
def findMember? (k : Key) (members : List (Key × Value)) : Option Value :=
  (members.find? fun m => m.1.same k).map (·.2)

/-- The members with `k` set to `v`: in place when the name is there, else at the end. -/
def putMember (k : Key) (v : Value) : List (Key × Value) → List (Key × Value)
  | [] => [(k, v)]
  | m :: ms => if m.1.same k then (m.1, v) :: ms else m :: putMember k v ms

mutual

/-- A member name as a value. -/
def Key.value : Key → Value
  | .string s => .string s
  | .int n => .int n
  | .bool b => .bool b
  | .float x => .float x
  | .null => .null
  | .missing => .missing
  | .bytes data => .bytes .fixed data
  | .moment m => .moment m
  | .tuple items => .tuple (Key.values items)

/-- Member names as values. -/
def Key.values : List Key → List Value
  | [] => []
  | k :: ks => Key.value k :: Key.values ks

end

mutual

/-- The member name that a value is, if it cannot change. -/
def Key.ofValue? : Value → Option Key
  | .string s => some (.string s)
  | .int n => some (.int n)
  | .bool b => some (.bool b)
  | .float x => some (.float x)
  | .null => some .null
  | .missing => some .missing
  | .bytes .fixed data => some (.bytes data)
  | .moment m => some (.moment m)
  | .tuple items => (Key.ofValues? items).map .tuple
  | _ => none

/-- The member names that values are, if none of them can change. -/
def Key.ofValues? : List Value → Option (List Key)
  | [] => some []
  | v :: vs =>
    match Key.ofValue? v, Key.ofValues? vs with
    | some k, some ks => some (k :: ks)
    | _, _ => none

end

namespace Value

/-- The kind of a JSON value, of its outermost layer. -/
def kind? : Value → Option Kind
  | .null => some .null
  | .bool _ => some .boolean
  | .int _ => some .integer
  | .float _ => some .number
  | .string _ => some .string
  | .array _ => some .array
  | .object _ => some .object
  | _ => none

def isMissing : Value → Bool
  | .missing => true
  | _ => false

def isNull : Value → Bool
  | .null => true
  | _ => false

/-- The member of an object that a string names. -/
def get? (v : Value) (name : String) : Option Value :=
  match v with
  | .object members => findMember? (.string name) members
  | _ => none

/-- The same, `missing` where there is none. -/
def getD (v : Value) (name : String) : Value :=
  (v.get? name).getD .missing

/-- An object from string names. -/
def ofFields (fields : List (String × Value)) : Value :=
  .object (fields.map fun f => (.string f.1, f.2))

/-- Whether a value counts as given: not absent, null, false, zero or empty. -/
def isGiven : Value → Bool
  | .missing => false
  | .null => false
  | .bool b => b
  | .int n => n != 0
  | .float x => !x.isZero
  | .string s => s != ""
  | .array items => !items.isEmpty
  | .tuple items => !items.isEmpty
  | .object members => !members.isEmpty
  | .bytes _ data => !data.isEmpty
  | .set items => !items.isEmpty
  | .moment _ => true
  | .responder _ => true
  | .record _ => true

/-- Whether two scalars of the same kind are equal. Doubles are equal by value. -/
def sameScalar : Value → Value → Bool
  | .null, .null => true
  | .bool a, .bool b => a == b
  | .int m, .int n => m == n
  | .float x, .float y => x.same y
  | .string s, .string t => s == t
  | _, _ => false

end Value

end JsonExpect
