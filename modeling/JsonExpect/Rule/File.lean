import JsonExpect.FileTree.Basic
import JsonExpect.Library
import JsonExpect.Rule.Basic

/-!
# Rule files

A rule file is a document that holds rules. `Rule.load` tells apart a file that cannot be read or
whose text is refused as a document, and a document that holds something else than rules. Beyond
that it fails where a path is no path at all, where the bytes of a file are no text, where the
library that reads the document raises something else, and where a rule is refused for an integer
that is too long to be shown.
-/

namespace JsonExpect

/-- Why a rule file gives no document. -/
inductive RuleFileFault where
  | unreadable (f : FileFault)
  | notDocument (told : Option String)
deriving DecidableEq, Repr

def RuleFileFault.reason : RuleFileFault → String
  | .unreadable f => f.reason
  | .notDocument told => reasonWith "invalid YAML" told

/-- Why a rule file gives no rules. -/
inductive RuleLoadError where
  | file (p : TreePath) (f : RuleFileFault)
  | rule (e : RuleError)
  | nullCharacter
  /-- The bytes of the file are no text. -/
  | notText
  /-- The library that reads the document raises something else than that it refuses the text. -/
  | document (message : String)
  /-- A refused rule shows an integer in too many digits. -/
  | longInteger

def RuleLoadError.message : RuleLoadError → String
  | .file p f => "Cannot load rule file " ++ p.text ++ ": " ++ f.reason
  | .rule e => e.message
  | .nullCharacter => FileFault.nullCharacter.reason
  | .notText => FileFault.notText.reason
  | .document message => message
  | .longInteger => longIntegerMessage

/-- Whether the error says what is wrong with the rules or their file. -/
def RuleLoadError.isRefusal : RuleLoadError → Bool
  | .file .. => true
  | .rule _ => true
  | _ => false

/-- The rules of the file at a path. -/
def Rule.load (read : DocumentReader) (t : FileTree) (path : String) :
    Except RuleLoadError (List Rule) :=
  let p := TreePath.ofText path
  match t.read p with
  | .error .nullCharacter => .error .nullCharacter
  | .error .notText => .error .notText
  | .error f => .error (.file p (.unreadable f))
  | .ok text =>
    match read text with
    | .error (.refused told) => .error (.file p (.notDocument told))
    | .error (.raised message) => .error (.document message)
    | .ok v =>
      match Rule.parseAll v with
      | .error e => .error (if e.isShowable then .rule e else .longInteger)
      | .ok rules => .ok rules

end JsonExpect
