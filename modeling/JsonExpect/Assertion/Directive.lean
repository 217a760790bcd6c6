import JsonExpect.Options.Setting

/-!
# Directives

A `Directive` is an option call as it is written in tests and rules. Seven of them take a scope;
that a key be absent and that a collection have a number of elements concern a single node.
-/

namespace JsonExpect

/-- The directives that may reach over a subtree. -/
inductive ScopedDirective where
  | anyOrder
  /-- Match by position again. -/
  | strictOrder
  | equalCount
  /-- Allow extra entries again. -/
  | flexibleCount
  | exactMatch
  /-- Compare types only. -/
  | typeMatch
  | valueNotEqual
deriving DecidableEq, Repr

namespace ScopedDirective

def all : List ScopedDirective :=
  [.anyOrder, .strictOrder, .equalCount, .flexibleCount, .exactMatch, .typeMatch, .valueNotEqual]

def name : ScopedDirective → String
  | .anyOrder => "any_order"
  | .strictOrder => "strict_order"
  | .equalCount => "equal_count"
  | .flexibleCount => "flexible_count"
  | .exactMatch => "exact_match"
  | .typeMatch => "type_match"
  | .valueNotEqual => "value_not_equal"

/-- The directive of a name. -/
def ofName? (name : String) : Option ScopedDirective := all.find? (·.name = name)

/-- What the directive sets. -/
def setting : ScopedDirective → Setting
  | .anyOrder => .flag .anyOrder true
  | .strictOrder => .flag .anyOrder false
  | .equalCount => .flag .equalCount true
  | .flexibleCount => .flag .equalCount false
  | .exactMatch => .flag .exactMatch true
  | .typeMatch => .flag .exactMatch false
  | .valueNotEqual => .flag .valueNotEqual true

end ScopedDirective

/-- An option call without its paths. -/
inductive Directive where
  | scoped (d : ScopedDirective) (scope : Scope)
  | keyMustBeAbsent
  | elementCount (n : Int)
deriving DecidableEq, Repr

namespace Directive

def name : Directive → String
  | .scoped d _ => d.name
  | .keyMustBeAbsent => "key_must_be_absent"
  | .elementCount _ => "element_count"

/-- What the directive sets. -/
def setting : Directive → Setting
  | .scoped d _ => d.setting
  | .keyMustBeAbsent => .flag .keyMustBeAbsent true
  | .elementCount n => .elementCount n

/-- How far the setting reaches. -/
def scope : Directive → Scope
  | .scoped _ scope => scope
  | _ => .singleNode

/-- The count of a directive on the number of elements, from a raw argument. -/
def elementCount? : Value → Option Directive
  | .int n => some (.elementCount n)
  | _ => none

end Directive

end JsonExpect
