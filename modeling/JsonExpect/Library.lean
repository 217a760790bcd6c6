import JsonExpect.Value.Basic

/-!
# Libraries

Selectors and the documents of rule files are read by libraries. A library takes a text or refuses
it; what it raises beyond that is no refusal, and nothing that a caller counts on. A compiled
selector lists its matches in a value, and each match has a value of its own.
-/

namespace JsonExpect

/-- What a library raises when it reads a text. -/
inductive LibraryError where
  /-- The text is refused, with what is said of it, if anything. -/
  | refused (told : Option String)
  /-- Anything else, by its message. -/
  | raised (message : String)
deriving DecidableEq, Repr

/-- A reason with what a library says behind it. -/
def reasonWith (reason : String) (told : Option String) : String :=
  reason ++ told.elim "" (": " ++ ·)

/-- A library of selectors. What evaluating raises is known by its message. -/
structure SelectorLibrary where
  Compiled : Type
  Match : Type
  compile : String → Except LibraryError Compiled
  /-- The matches in a value, the first one first. -/
  find : Compiled → Value → Except String (List Match)
  value : Match → Except String Value

/-- A library that reads a document. -/
abbrev DocumentReader := String → Except LibraryError Value

end JsonExpect
