/-!
# Paths of files

A `TreePath` is a path as it is written down, without the parts that lead nowhere: empty ones and
single dots. Its stem is its last part without the last ending.
-/

namespace JsonExpect

/-- The path of a file or a folder. -/
structure TreePath where
  /-- What an absolute path begins with; nothing for a path from the working folder. -/
  anchor : String := ""
  parts : List String := []
deriving DecidableEq, Repr, Inhabited

namespace TreePath

/-- The text cut at its slashes. -/
def splitSlashes : List Char → List (List Char)
  | [] => [[]]
  | c :: cs =>
    if c = '/' then [] :: splitSlashes cs
    else (splitSlashes cs).modifyHead (c :: ·)

/-- The slashes in front that count: exactly two are kept, any other number is one. -/
def anchorOf (cs : List Char) : String :=
  match (cs.takeWhile (· = '/')).length with
  | 0 => ""
  | 2 => "//"
  | _ => "/"

/-- The path that a text writes. -/
def ofText (text : String) : TreePath where
  anchor := anchorOf text.toList
  parts := ((splitSlashes text.toList).filter fun p => p ≠ [] ∧ p ≠ ['.']).map String.ofList

/-- The text of a path; the working folder is a dot. -/
def text (p : TreePath) : String :=
  if p.anchor = "" ∧ p.parts = [] then "." else p.anchor ++ "/".intercalate p.parts

/-- The path of an entry of a folder. -/
def child (p : TreePath) (name : String) : TreePath := { p with parts := p.parts ++ [name] }

/-- The last part, empty where there is none. -/
def name (p : TreePath) : String := p.parts.getLast?.getD ""

/-- A name without its last ending. A dot in front or at the end begins no ending. -/
def stemOf (name : List Char) : List Char :=
  let ending := name.reverse.takeWhile (· ≠ '.')
  let stem := (name.reverse.drop (ending.length + 1)).reverse
  if ending = [] ∨ stem = [] then name else stem

/-- The last part without its last ending. -/
def stem (p : TreePath) : String := String.ofList (stemOf p.name.toList)

/-- The place above a place: the parts without the last. Above the working folder one can only go on
upwards, and above the root there is nothing. -/
def above (place : List String) : List String :=
  match place.getLast? with
  | none => [".."]
  | some last =>
    if last = ".." then place ++ [".."]
    else if last = "/" then place
    else place.dropLast

/-- The place where a path begins: the working folder, or the root. -/
def origin (p : TreePath) : List String := if p.anchor = "" then [] else ["/"]

/-- One step on the way along a path. -/
def step (place : List String) (part : String) : List String :=
  if part = ".." then above place else if part = "." then place else place ++ [part]

/-- The place that a path leads to, if every step of it can be taken. -/
def target (p : TreePath) : List String := p.parts.foldl step p.origin

/-- The parts of a text between its slashes, the single dots among them as well. -/
def partsAsWritten (text : String) : List String :=
  ((splitSlashes text.toList).filter (· ≠ [])).map String.ofList

end TreePath

end JsonExpect
