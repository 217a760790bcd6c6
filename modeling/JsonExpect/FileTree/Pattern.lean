/-!
# Patterns of names

In a pattern an asterisk stands for any characters, a question mark for any one, and brackets for
one of some characters, or one of none of them behind an exclamation mark. Among these, a dash
between two characters stands for all from the one to the other. `Pattern.fits` works out for each
part of the pattern which ends of the name it fits, the last part first, so it takes no more time
than the two lengths multiplied.
-/

namespace JsonExpect

/-- What stands for one character. -/
inductive Single where
  | any
  | char (c : Char)
  /-- One of the characters in some ranges, or one outside of them. -/
  | range (outside : Bool) (ranges : List (Char × Char))
deriving DecidableEq, Repr

/-- A part of a pattern. -/
inductive Part where
  | one (s : Single)
  /-- Any number of any characters. -/
  | many
deriving DecidableEq, Repr

/-- Whether a character is meant. -/
def Single.holds (c : Char) : Single → Bool
  | .any => true
  | .char d => c = d
  | .range outside ranges => outside != ranges.any fun r => r.1 ≤ c && c ≤ r.2

namespace Pattern

/-- The characters between brackets and what follows them, if the bracket is closed. One that comes
first, or right behind an exclamation mark, does not close it. -/
def bracketed? (cs : List Char) : Option (List Char × List Char) :=
  let head := if cs.head? = some '!' then ['!'] else []
  let body := cs.drop head.length
  let first := if body.head? = some ']' then [']'] else []
  let rest := body.drop first.length
  match rest.dropWhile (· ≠ ']') with
  | [] => none
  | _ :: behind => some (head ++ first ++ rest.takeWhile (· ≠ ']'), behind)

/-- The text cut at dashes, of which two have two characters between them at least. The first
`held` characters are passed over. -/
def cutDashes (held : Nat) : List Char → List (List Char)
  | [] => [[]]
  | c :: cs =>
    if held = 0 ∧ c = '-' then [] :: cutDashes 2 cs
    else (cutDashes (held - 1) cs).modifyHead (c :: ·)

/-- The pieces between dashes, where a dash at the end stands for itself. -/
def closeLast : List (List Char) → List (List Char)
  | [] => []
  | [p, []] => [p ++ ['-']]
  | p :: ps => p :: closeLast ps

/-- The pieces without the ranges that go backwards, the last of them first. -/
def dropBackwards : List (List Char) → List (List Char)
  | [] => []
  | p :: ps =>
    match dropBackwards ps with
    | [] => [p]
    | q :: qs =>
      if p.getLast?.any fun l => q.head?.any fun h => h < l then (p.dropLast ++ q.tail) :: qs
      else p :: q :: qs

/-- The characters of pieces that are no ends of ranges, where the first `held` of the first piece
are. -/
def aloneIn (held : Nat) : List (List Char) → List Char
  | [] => []
  | [p] => p.drop held
  | p :: ps => (p.drop held).dropLast ++ aloneIn 1 ps

/-- The range from the end of one piece to the beginning of the next. -/
def rangeBetween (pieces : List Char × List Char) : List (Char × Char) :=
  match pieces.1.getLast?, pieces.2.head? with
  | some l, some h => [(l, h)]
  | _, _ => []

/-- The ranges of pieces with dashes between them. -/
def rangesOf (pieces : List (List Char)) : List (Char × Char) :=
  (aloneIn 0 pieces).map (fun c => (c, c)) ++ (pieces.zip pieces.tail).flatMap rangeBetween

/-- What pieces with dashes between them stand for. An exclamation mark in front means the
characters that are not among them, and a dash right behind it stands for itself. -/
def ofPieces : List (List Char) → Single
  | ['!'] :: p :: ps => .range true (rangesOf (('-' :: p) :: ps))
  | ('!' :: p) :: ps => .range true (rangesOf (p :: ps))
  | ps => .range false (rangesOf ps)

/-- What the characters between brackets stand for. An exclamation mark counts as standing in front
when it does so without the ranges that go backwards. -/
def single (content : List Char) : Single :=
  let held := if content.head? = some '!' then 2 else 1
  ofPieces (dropBackwards (closeLast (cutDashes held content)))

/-- The parts of a pattern, the text of which is at most so long. -/
def parts : Nat → List Char → List Part
  | 0, _ => []
  | _, [] => []
  | fuel + 1, c :: cs =>
    if c = '*' then .many :: parts fuel cs
    else if c = '?' then .one .any :: parts fuel cs
    else if c = '[' then
      match bracketed? cs with
      | some (content, rest) => .one (single content) :: parts fuel rest
      | none => .one (.char c) :: parts fuel cs
    else .one (.char c) :: parts fuel cs

/-- For each end of a list whether a truth value from there on is true. -/
def anyFrom : List Bool → List Bool
  | [] => []
  | b :: bs =>
    let rest := anyFrom bs
    (b || rest.head?.getD false) :: rest

/-- For each end of a name, the whole first, whether it fits some parts. -/
def fitsEnds (name : List Char) : List Part → List Bool
  | [] => List.replicate name.length false ++ [true]
  | .many :: ps => anyFrom (fitsEnds name ps)
  | .one s :: ps => List.zipWith (fun c b => s.holds c && b) name (fitsEnds name ps).tail ++ [false]

/-- Whether a name fits a pattern. -/
def fits (pattern name : String) : Bool :=
  let cs := pattern.toList
  (fitsEnds name.toList (parts cs.length cs)).head?.getD false

/-- Whether a pattern may fit several names. -/
def isOpen (pattern : String) : Bool := pattern.toList.any fun c => c = '*' || c = '?' || c = '['

end Pattern

end JsonExpect
