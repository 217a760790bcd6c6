import JsonExpect.Library
import JsonExpect.Selector.Parser
import JsonExpect.Selector.Search

/-!
# Selectors as a library

Texts that are malformed are refused. A numeral of too many digits is raised, and so is what goes
wrong when a selector is evaluated.
-/

namespace JsonExpect.Selector

/-- The value of a match. What holds the whole document is none. -/
def matchValue : Option Spot → Except SelectorFault Value
  | some s => s.value
  | none => .error .noHolder

/-- Why a text is not compiled. -/
def ParseFault.libraryError : ParseFault → LibraryError
  | .malformed => .refused none
  | .longNumeral digits => .raised (longNumeralMessage digits)

/-- The library of selectors. -/
def library : SelectorLibrary where
  Compiled := Selector
  Match := Option Spot
  compile text := (parse text).mapError ParseFault.libraryError
  find s v := (s.find (some { value := .ok v })).mapError SelectorFault.message
  value m := (matchValue m).mapError SelectorFault.message

end JsonExpect.Selector
