import JsonExpect.Value.Literal

/-!
# Options and their settings

A node of the option tree has five switches, the `Flag`s, and may require an element count. A
`Setting` gives one of them a value. A `Bundle` holds values for the flags, and `Overrides` hold the
values that a node sets itself.
-/

namespace JsonExpect

/-- How far an option set at a path reaches. -/
inductive Scope where
  | singleNode
  | subtree
deriving DecidableEq, Repr

/-- The switches of a node. -/
inductive Flag where
  /-- The elements of an array may be met by elements at any position. -/
  | anyOrder
  /-- Values must be equal, not only of the same kind. -/
  | exactMatch
  /-- Collections must have equally many entries. -/
  | equalCount
  /-- The key must not be there. -/
  | keyMustBeAbsent
  /-- Values must differ. -/
  | valueNotEqual
deriving DecidableEq, Repr

/-- What can be set at a node: a switch, or the number of elements it requires. -/
inductive OptionKind where
  | flag (f : Flag)
  | elementCount
deriving DecidableEq, Repr

/-- An option together with the value it is set to. -/
inductive Setting where
  | flag (f : Flag) (on : Bool)
  | elementCount (n : Int)
deriving DecidableEq, Repr

def Scope.name : Scope → String
  | .singleNode => "single_node"
  | .subtree => "subtree"

namespace Flag

/-- The flags in the order in which they are listed. -/
def all : List Flag := [.anyOrder, .exactMatch, .equalCount, .keyMustBeAbsent, .valueNotEqual]

def name : Flag → String
  | .anyOrder => "any_order"
  | .exactMatch => "exact_match"
  | .equalCount => "equal_count"
  | .keyMustBeAbsent => "key_must_be_absent"
  | .valueNotEqual => "value_not_equal"

end Flag

namespace OptionKind

def all : List OptionKind := Flag.all.map .flag ++ [.elementCount]

def name : OptionKind → String
  | .flag f => f.name
  | .elementCount => "element_count"

end OptionKind

def Setting.kind : Setting → OptionKind
  | .flag f _ => .flag f
  | .elementCount _ => .elementCount

/-- The setting of an option to a raw value of the right type. -/
def OptionKind.setting? : OptionKind → Value → Option Setting
  | .flag f, .bool on => some (.flag f on)
  | .elementCount, .int n => some (.elementCount n)
  | _, _ => none

/-- Why a raw value names no scope or no option. -/
inductive NameError where
  | scope (given : Value)
  | optionKind (given : Value)

/-- What is said of the raw value. One that holds an integer of too many digits cannot be quoted. -/
def NameError.message : NameError → String
  | .scope given =>
    if given.holdsLongInteger then longIntegerMessage
    else given.literal ++ " is not a valid Scope"
  | .optionKind given =>
    if given.holdsLongInteger then longIntegerMessage
    else given.literal ++ " is not a valid OptionKind"

/-- The scope that a raw value names. -/
def Scope.ofValue? : Value → Except NameError Scope
  | .string "single_node" => .ok .singleNode
  | .string "subtree" => .ok .subtree
  | v => .error (.scope v)

/-- The option that a raw value names. -/
def OptionKind.ofValue? (v : Value) : Except NameError OptionKind :=
  match OptionKind.all.find? fun k => v.sameScalar (.string k.name) with
  | some k => .ok k
  | none => .error (.optionKind v)

/-- A value for every flag that it does not leave open: what a node passes on to nodes that are not
set otherwise. -/
structure Bundle where
  anyOrder : Option Bool := some false
  exactMatch : Option Bool := some true
  equalCount : Option Bool := some false
  keyMustBeAbsent : Option Bool := some false
  valueNotEqual : Option Bool := some false
deriving DecidableEq, Repr, Inhabited

namespace Bundle

def get (b : Bundle) : Flag → Option Bool
  | .anyOrder => b.anyOrder
  | .exactMatch => b.exactMatch
  | .equalCount => b.equalCount
  | .keyMustBeAbsent => b.keyMustBeAbsent
  | .valueNotEqual => b.valueNotEqual

/-- The bundle with a flag at a value, or with the flag left open. -/
def put (b : Bundle) (on : Option Bool) : Flag → Bundle
  | .anyOrder => { b with anyOrder := on }
  | .exactMatch => { b with exactMatch := on }
  | .equalCount => { b with equalCount := on }
  | .keyMustBeAbsent => { b with keyMustBeAbsent := on }
  | .valueNotEqual => { b with valueNotEqual := on }

@[simp] theorem get_put_self (b : Bundle) (on : Option Bool) (f : Flag) :
    (b.put on f).get f = on := by
  cases f <;> rfl

theorem get_put_of_ne (b : Bundle) (on : Option Bool) {f g : Flag} (h : g ≠ f) :
    (b.put on f).get g = b.get g := by
  cases f <;> cases g <;> first | rfl | exact absurd rfl h

end Bundle

/-- The values that a node sets itself; what is not set falls back to a bundle. -/
structure Overrides where
  anyOrder : Option Bool := none
  exactMatch : Option Bool := none
  equalCount : Option Bool := none
  keyMustBeAbsent : Option Bool := none
  valueNotEqual : Option Bool := none
  elementCount : Option Int := none
deriving DecidableEq, Repr, Inhabited

namespace Overrides

def get (o : Overrides) : Flag → Option Bool
  | .anyOrder => o.anyOrder
  | .exactMatch => o.exactMatch
  | .equalCount => o.equalCount
  | .keyMustBeAbsent => o.keyMustBeAbsent
  | .valueNotEqual => o.valueNotEqual

/-- The overrides with a flag at a value, or with the flag not set. -/
def put (o : Overrides) (on : Option Bool) : Flag → Overrides
  | .anyOrder => { o with anyOrder := on }
  | .exactMatch => { o with exactMatch := on }
  | .equalCount => { o with equalCount := on }
  | .keyMustBeAbsent => { o with keyMustBeAbsent := on }
  | .valueNotEqual => { o with valueNotEqual := on }

/-- The overrides with a setting. -/
def set (o : Overrides) : Setting → Overrides
  | .flag f on => o.put (some on) f
  | .elementCount n => { o with elementCount := some n }

/-- The overrides without what they say of an option. -/
def unset (o : Overrides) : OptionKind → Overrides
  | .flag f => o.put none f
  | .elementCount => { o with elementCount := none }

/-- The overrides of `o`, and those of `fallback` where `o` has none. -/
def orElse (o fallback : Overrides) : Overrides where
  anyOrder := o.anyOrder <|> fallback.anyOrder
  exactMatch := o.exactMatch <|> fallback.exactMatch
  equalCount := o.equalCount <|> fallback.equalCount
  keyMustBeAbsent := o.keyMustBeAbsent <|> fallback.keyMustBeAbsent
  valueNotEqual := o.valueNotEqual <|> fallback.valueNotEqual
  elementCount := o.elementCount <|> fallback.elementCount

@[simp] theorem get_put_self (o : Overrides) (on : Option Bool) (f : Flag) :
    (o.put on f).get f = on := by
  cases f <;> rfl

theorem get_put_of_ne (o : Overrides) (on : Option Bool) {f g : Flag} (h : g ≠ f) :
    (o.put on f).get g = o.get g := by
  cases f <;> cases g <;> first | rfl | exact absurd rfl h

@[simp] theorem elementCount_put (o : Overrides) (on : Option Bool) (f : Flag) :
    (o.put on f).elementCount = o.elementCount := by
  cases f <;> rfl

/-- What is set of an option, if anything. -/
def setting? (o : Overrides) : OptionKind → Option Setting
  | .flag f => (o.get f).map (.flag f)
  | .elementCount => o.elementCount.map .elementCount

/-- A setting replaces what was set of its option and nothing else. -/
theorem setting?_set (o : Overrides) (s : Setting) (k : OptionKind) :
    (o.set s).setting? k = if k = s.kind then some s else o.setting? k := by
  cases s with
  | flag f on =>
    cases k with
    | elementCount => simp [setting?, set, Setting.kind]
    | flag g =>
      by_cases h : g = f
      · simp [setting?, set, Setting.kind, h]
      · simp [setting?, set, Setting.kind, h, get_put_of_ne o (some on) h]
  | elementCount n =>
    cases k with
    | elementCount => rfl
    | flag g => cases g <;> rfl

end Overrides

end JsonExpect
