import JsonExpect.Library
import JsonExpect.Yaml.Document

/-!
# Documents as a library

Texts that are malformed are refused. What is wrong with a scalar is raised.
-/

namespace JsonExpect.Yaml

/-- Why a text is not read. -/
def Fault.libraryError : Fault → LibraryError
  | .malformed => .refused none
  | f => .raised f.message

/-- The library that reads documents. -/
def library : DocumentReader := fun text => (read text).mapError Fault.libraryError

end JsonExpect.Yaml
