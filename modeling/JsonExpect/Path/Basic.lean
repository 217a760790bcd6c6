import JsonExpect.Text.Digit

/-!
# Paths into a document

A `Path` is a sequence of `Component`s: object keys, array indices, and a wildcard for each. The
empty path addresses the whole document. A component names the node of the option tree that it leads
to; a wildcard leads to the template of a node and to every child. An index is named by its numeral,
so one of too many digits names no node.
-/

namespace JsonExpect

/-- One step of a path. -/
inductive Component where
  | key (name : String)
  | index (position : Nat)
  /-- Every key of an object. -/
  | anyKey
  /-- Every index of an array. -/
  | anyIndex
deriving DecidableEq, Repr, Inhabited

namespace Component

def isWildcard : Component → Bool
  | .anyKey | .anyIndex => true
  | _ => false

def isArrayAccess : Component → Bool
  | .index _ | .anyIndex => true
  | _ => false

/-- The name of the node that the component leads to, if it has one. -/
def nodeName? : Component → Option String
  | .key name => some name
  | .index position => if hasLongNumeral position then none else some (toString position)
  | .anyKey => some "*"
  | .anyIndex => some "[*]"

/-- An index has few enough digits to be read back. -/
def Legible : Component → Prop
  | .index i => (Nat.toDigits 10 i).length ≤ longestNumeral
  | _ => True

instance : DecidablePred Legible
  | .index i => inferInstanceAs (Decidable ((Nat.toDigits 10 i).length ≤ longestNumeral))
  | .key _ | .anyKey | .anyIndex => .isTrue trivial

end Component

/-- A sequence of steps from the root of a document. -/
structure Path where
  components : List Component
deriving DecidableEq, Repr, Inhabited

namespace Path

/-- The path to the whole document. -/
def root : Path := ⟨[]⟩

def isRoot (p : Path) : Bool := p.components.isEmpty

/-- No index of the path has too many digits. -/
def Legible (p : Path) : Prop := ∀ c ∈ p.components, c.Legible

instance (p : Path) : Decidable p.Legible :=
  inferInstanceAs (Decidable (∀ c ∈ p.components, c.Legible))

def length (p : Path) : Nat := p.components.length

/-- All components but the last; the root has no parent. -/
def parent? (p : Path) : Option Path :=
  if p.isRoot then none else some ⟨p.components.dropLast⟩

def last? (p : Path) : Option Component := p.components.getLast?

instance : Append Path where
  append p q := ⟨p.components ++ q.components⟩

end Path

end JsonExpect
