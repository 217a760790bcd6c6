import JsonExpect.FileTree.Path
import JsonExpect.Value.Literal

/-!
# File trees

A `FileTree` is what can be seen of a file system: files with their texts, and folders. A folder is
there when it is listed or something is in it; so are the root and the folders above the working
folder. Reading a file gives its text or says why there is none, and so does looking for a place to
write to. Names of more than 255 bytes and paths of more than 4095 bytes are too long.
-/

namespace JsonExpect

/-- Files and folders by where they are. -/
structure FileTree where
  /-- The text of each file, none where its bytes are no text. -/
  files : List (List String × Option String) := []
  folders : List (List String) := []
deriving Inhabited

/-- Why nothing can be read or written at a path. -/
inductive FileFault where
  | missing
  | isFolder
  | notInFolder
  | nameTooLong
  /-- The path has a null character. -/
  | nullCharacter
  | notText
deriving DecidableEq, Repr

namespace FileFault

def reason : FileFault → String
  | .missing => "No such file or directory"
  | .isFolder => "Is a directory"
  | .notInFolder => "Not a directory"
  | .nameTooLong => "File name too long"
  | .nullCharacter => "embedded null byte"
  | .notText => "Not a text"

/-- The number that the system gives to a fault of its own. -/
def number? : FileFault → Option Nat
  | .missing => some 2
  | .isFolder => some 21
  | .notInFolder => some 20
  | .nameTooLong => some 36
  | _ => none

/-- The message of a fault at the path of a text. -/
def message (f : FileFault) (path : String) : String :=
  match f.number? with
  | some n => s!"[Errno {n}] " ++ f.reason ++ ": " ++ literalString path
  | none => f.reason

end FileFault

namespace FileTree

/-- Where everything in the tree is. -/
def places (t : FileTree) : List (List String) := t.files.map (·.1) ++ t.folders

/-- The file at a place. -/
def file? (t : FileTree) (place : List String) : Option (Option String) :=
  (t.files.find? (·.1 = place)).map (·.2)

/-- Whether a place is the working folder, one above it, or the root. -/
def isAlwaysFolder (place : List String) : Bool := place = ["/"] || place.all (· = "..")

/-- Whether a folder is at a place. -/
def isFolderAt (t : FileTree) (place : List String) : Bool :=
  isAlwaysFolder place || t.folders.contains place ||
    t.places.any fun p => place.isPrefixOf p && place.length < p.length

/-- Whether a file or a folder is at a place. -/
def existsAt (t : FileTree) (place : List String) : Bool :=
  (t.file? place).isSome || t.isFolderAt place

/-- The way from a place along parts. Every part but the last must lead to a folder. -/
def walk (t : FileTree) (place : List String) : List String → Except FileFault (List String)
  | [] => .ok place
  | part :: rest =>
    if t.isFolderAt place then
      if 255 < part.utf8ByteSize then .error .nameTooLong
      else t.walk (TreePath.step place part) rest
    else if (t.file? place).isSome then .error .notInFolder
    else .error .missing

/-- What is wrong with the text of a path, wherever it leads. -/
def textFault? (path : String) : Option FileFault :=
  if '\x00' ∈ path.toList then some .nullCharacter
  else if 4095 < path.utf8ByteSize then some .nameTooLong
  else none

/-- The place that a path leads to. -/
def find (t : FileTree) (p : TreePath) : Except FileFault (List String) :=
  match textFault? p.text with
  | some f => .error f
  | none => t.walk p.origin p.parts

/-- Whether a test holds at the place that a path leads to. Only a path that is too long has no
answer. -/
def test (t : FileTree) (holds : List String → Bool) (p : TreePath) : Except FileFault Bool :=
  match t.find p with
  | .ok place => .ok (holds place)
  | .error .nameTooLong => .error .nameTooLong
  | .error _ => .ok false

/-- Whether a path leads to a folder. -/
def isFolder (t : FileTree) (p : TreePath) : Except FileFault Bool := t.test t.isFolderAt p

/-- Whether a path leads to a file or a folder. -/
def holds (t : FileTree) (p : TreePath) : Except FileFault Bool := t.test t.existsAt p

/-- The text of the file that a path leads to. -/
def read (t : FileTree) (p : TreePath) : Except FileFault String :=
  match t.find p with
  | .error f => .error f
  | .ok place =>
    match t.file? place with
    | some (some text) => .ok text
    | some none => .error .notText
    | none => .error (if t.isFolderAt place then .isFolder else .missing)

/-- What keeps a file from being written at a path. A path that ends in a slash means a folder. -/
def writeFault? (t : FileTree) (path : String) : Option FileFault :=
  match textFault? path with
  | some f => some f
  | none =>
    match t.walk (TreePath.ofText path).origin (TreePath.partsAsWritten path) with
    | .error f => some f
    | .ok place =>
      if t.isFolderAt place || path.endsWith "/" then some .isFolder else none

/-- The names of what is in the folder that a path leads to. -/
def names (t : FileTree) (p : TreePath) : List String :=
  match t.find p with
  | .error _ => []
  | .ok place =>
    (t.places.filterMap fun q =>
      if place.isPrefixOf q then (q.drop place.length).head? else none).eraseDups

end FileTree

end JsonExpect
