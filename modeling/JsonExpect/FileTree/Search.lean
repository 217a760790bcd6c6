import JsonExpect.FileTree.Basic
import JsonExpect.FileTree.Pattern
import JsonExpect.Text.Surrogate

/-!
# Searching folders

A pattern of paths is a path whose parts are patterns of names. Two asterisks as a part stand for
any number of folders, and with a slash at its end the pattern means folders alone.
`FileTree.matching` lists what a pattern means in a folder, in the order of the names.
-/

namespace JsonExpect

/-- Why a text is no pattern of paths below a folder. -/
inductive PatternFault where
  /-- No text is given, or an empty one. -/
  | empty (given : Option String)
  /-- The pattern means the folder itself. -/
  | noParts
  /-- The pattern means the folder itself, and that as a folder. -/
  | onlySlash
  | absolute
  /-- Two asterisks stand beside something else. -/
  | strayAsterisks
deriving DecidableEq, Repr

def PatternFault.message : PatternFault → String
  | .empty given => "Unacceptable pattern: " ++ given.elim "[]" literalString
  | .noParts => "tuple index out of range"
  | .onlySlash => "'_TerminatingSelector' object has no attribute 'select_from'"
  | .absolute => "Non-relative patterns are unsupported"
  | .strayAsterisks => "Invalid pattern: '**' can only be an entire path component"

/-- Why a search has no outcome. -/
inductive SearchFault where
  | pattern (f : PatternFault)
  /-- Something is wrong with a path on the way. -/
  | path (p : TreePath) (f : FileFault)
deriving DecidableEq, Repr

def SearchFault.message : SearchFault → String
  | .pattern f => f.message
  | .path p f => f.message p.text

/-- Whether two asterisks stand somewhere in a text. -/
def hasAsteriskPair : List Char → Bool
  | '*' :: '*' :: _ => true
  | _ :: cs => hasAsteriskPair cs
  | [] => false

/-- The parts of a pattern, an empty one at the end where the pattern means folders alone. -/
def patternParts (pattern : String) : Except PatternFault (List String) :=
  let path := TreePath.ofText pattern
  if pattern = "" then .error (.empty (some pattern))
  else if path.anchor ≠ "" then .error .absolute
  else if path.parts = [] then
    .error (if pattern.endsWith "/" then .onlySlash else .noParts)
  else if path.parts.any fun p => p ≠ "**" && hasAsteriskPair p.toList then
    .error .strayAsterisks
  else .ok (path.parts ++ if pattern.endsWith "/" then [""] else [])

namespace FileTree

/-- A folder and all folders below it, so many levels down. -/
def foldersBelow (t : FileTree) : Nat → TreePath → List TreePath
  | 0, folder => [folder]
  | depth + 1, folder =>
    folder :: (((t.names folder).map folder.child).filter fun p =>
      (t.find p).toOption.any t.isFolderAt).flatMap (t.foldersBelow depth)

/-- The entries of a folder that one part of a pattern means; `folders` tells that they are to be
folders. -/
def entries (t : FileTree) (folders : Bool) (part : String) (folder : TreePath) :
    Except SearchFault (List TreePath) :=
  let keep (p : TreePath) : Except SearchFault Bool :=
    (if folders then t.isFolder p else t.holds p).mapError (.path p)
  let named :=
    if Pattern.isOpen part then (t.names folder).filter (Pattern.fits part) else [part]
  (named.map folder.child).filterM keep

/-- What the parts of a pattern mean in a folder. -/
def select (t : FileTree) : List String → TreePath → Except SearchFault (List TreePath)
  | [], folder => .ok [folder]
  | part :: rest, folder =>
    if part = "" then .ok [folder]
    else if part = "**" then
      let depth := (t.places.map List.length).foldl max 0
      ((t.foldersBelow depth folder).mapM (t.select rest)).map fun found =>
        found.flatten.eraseDups
    else
      match t.entries (!rest.isEmpty) part folder with
      | .error e => .error e
      | .ok found => (found.mapM (t.select rest)).map List.flatten

/-- Whether a path comes first by the texts of its parts, or is the same. -/
def partsLE : List String → List String → Bool
  | [], _ => true
  | _ :: _, [] => false
  | p :: ps, q :: qs => if p = q then partsLE ps qs else textLE p.toList q.toList

/-- What a pattern means in a folder, in the order of the paths by their parts. Where there is no
folder it means nothing. -/
def matching (t : FileTree) (folder : TreePath) (pattern : Option String) :
    Except SearchFault (List TreePath) :=
  match pattern with
  | none => .error (.pattern (.empty none))
  | some text =>
    match patternParts text with
    | .error f => .error (.pattern f)
    | .ok parts =>
      match t.isFolder folder with
      | .error f => .error (.path folder f)
      | .ok false => .ok []
      | .ok true =>
        (t.select parts folder).map fun found =>
          found.mergeSort fun p q => partsLE p.parts q.parts

end FileTree

end JsonExpect
