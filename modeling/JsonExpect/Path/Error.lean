import JsonExpect.Path.Basic
import JsonExpect.Text.Digit
import JsonExpect.Value.Literal

/-!
# What is no path

The reasons for which a text, a list of components or another value is refused as a path, and for
which a path cannot be followed. A message that would have to write an integer of too many digits
gives way to what is said of such integers.
-/

namespace JsonExpect

/-- Why something is not a path. -/
inductive PathError where
  /-- An index is written with more digits than the limit. -/
  | indexTooLong (digits : Nat)
  | negativeIndex (n : Int)
  | indexNotInteger (given : Value)
  | notComponent (given : Value)
  /-- A value that is neither a text nor a list of components. -/
  | notSequence (given : Value)
  /-- An index that names no node, for it would be written with too many digits. -/
  | unnamedIndex

def PathError.message : PathError → String
  | .indexTooLong digits => longNumeralMessage digits
  | .negativeIndex n =>
    if hasLongNumeral n then longIntegerMessage
    else s!"Array index must be non-negative, got {n}"
  | .indexNotInteger given => s!"Array index must be an int, got {given.className}"
  | .notComponent given =>
    if given.holdsLongInteger then longIntegerMessage
    else s!"Not a path component: {given.literal}"
  | .notSequence given => s!"'{given.className}' object is not iterable"
  | .unnamedIndex => longIntegerMessage

/-- The component of an index that may be any value. -/
def Component.ofIndex? : Value → Except PathError Component
  | .int n => if n < 0 then .error (.negativeIndex n) else .ok (.index n.toNat)
  | v => .error (.indexNotInteger v)

end JsonExpect
