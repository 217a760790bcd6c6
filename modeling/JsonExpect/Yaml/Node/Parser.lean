import JsonExpect.Yaml.Scalar
import JsonExpect.Yaml.Token.Lexer

/-!
# Trees from tokens

`Node.ofTokens` builds the tree of the one document that tokens form, or finds none in them. A
`Reading` holds the tokens that are left and what the anchors and handles met so far mean. Where a
node may be left out and is, a null stands. Every function here takes at least one token or leaves
the reading to one that does, so the number of tokens bounds the depth of their calls.
-/

namespace JsonExpect.Yaml

/-- Tokens that are being read. -/
structure Reading where
  tokens : List Token
  /-- What each anchor means. -/
  anchors : List (String × Node) := []
  /-- What each handle of a tag stands for. -/
  handles : List (String × String) := []

/-- A step of reading. -/
abbrev Reader := StateT Reading (Except Fault)

namespace Reader

def malformed {α : Type} : Reader α := throw .malformed

/-- The next token. Reading breaks off at a fault. -/
def peek : Reader Token := do
  match (← get).tokens with
  | [] => malformed
  | .fault f :: _ => throw f
  | t :: _ => return t

/-- Moves on behind the next token. -/
def skip : Reader Unit := modify fun r => { r with tokens := r.tokens.tail }

/-- Takes a token if it comes next. -/
def taken (t : Token) : Reader Bool := do
  if (← peek) = t then
    skip
    return true
  else return false

/-- Whether one of some tokens comes next. -/
def comesAny (ts : List Token) : Reader Bool := return (← peek) ∈ ts

/-- Gives an anchor its meaning. -/
def setAnchor (anchor : Option String) (n : Node) : Reader Unit :=
  match anchor with
  | none => return ()
  | some a => modify fun r => { r with anchors := (a, n) :: r.anchors }

/-- What an anchor means. -/
def anchored (name : String) : Reader Node := do
  match (← get).anchors.find? (·.1 = name) with
  | some a => return a.2
  | none => malformed

/-- The full name of a tag. -/
def tagName (t : TagText) : Reader String := do
  match t.handle with
  | none => return t.suffix
  | some handle =>
    match (← get).handles.find? (·.1 = handle) with
    | some h => return h.2 ++ t.suffix
    | none => malformed

/-- An anchor and a tag in front of a node, in either order. -/
def labels : Reader (Option String × Option String) := do
  match ← peek with
  | .anchor a =>
    skip
    match ← peek with
    | .tag t =>
      skip
      return (some a, some (← tagName t))
    | _ => return (some a, none)
  | .tag t =>
    skip
    match ← peek with
    | .anchor a =>
      skip
      return (some a, some (← tagName t))
    | _ => return (none, some (← tagName t))
  | _ => return (none, none)

/-- The tag of a collection; without a name for it, or with an exclamation mark, it is what the
collection is by itself. -/
def collectionTag (tag : Option String) (default : Tag) : Tag :=
  match tag.filter (· ≠ "!") with
  | some name => Tag.ofName name
  | none => default

/-- The tag of a scalar. An exclamation mark lets a text between quotes count as one without. -/
def scalarTag (tag : Option String) (plain : Bool) (text : List Char) : Tag :=
  match tag with
  | none => if plain then Tag.ofPlain text else .string
  | some name => if name = "!" then Tag.ofPlain text else Tag.ofName name

/-- An anchor is given once. -/
def newAnchor (anchor : Option String) : Reader Unit := do
  let known := (← get).anchors
  if anchor.any fun a => known.any (·.1 = a) then malformed

/-- A scalar that has been read. -/
def scalar (anchor : Option String) (tag : Tag) (text : List Char) : Reader Node := do
  let n := Node.scalar tag text
  setAnchor anchor n
  return n

/-- A collection behind its first token. While it is being read its anchor means that it stands
inside itself. -/
def collection (anchor : Option String) (members : Bool) (body : Reader Node) : Reader Node := do
  setAnchor anchor (.inner members)
  let n ← body
  setAnchor anchor n
  return n

/-- Where a node stands: whether it may be a collection in block, and whether its items may stand
as deep as the name it belongs to. -/
structure Place where
  block : Bool
  level : Bool := false
deriving DecidableEq, Repr

mutual

/-- A node. -/
def node : Nat → Place → Reader Node
  | 0, _ => malformed
  | fuel + 1, place => do
    match ← peek with
    | .alias name =>
      skip
      anchored name
    | _ =>
      let (anchor, tag) ← labels
      let next ← peek
      if place.level ∧ next = .dash then
        newAnchor anchor
        collection anchor false do
          return .items (collectionTag tag .items) (← levelItems fuel [])
      else
        match next, place.block with
        | .scalar plain text, _ =>
          skip
          newAnchor anchor
          scalar anchor (scalarTag tag plain text) text
        | .openItems, _ =>
          skip
          newAnchor anchor
          collection anchor false do
            return .items (collectionTag tag .items) (← flowItems fuel [])
        | .openMembers, _ =>
          skip
          newAnchor anchor
          collection anchor true do
            return .members (collectionTag tag .members) (← flowMembers fuel [])
        | .beginItems, true =>
          skip
          newAnchor anchor
          collection anchor false do
            return .items (collectionTag tag .items) (← blockItems fuel [])
        | .beginMembers, true =>
          skip
          newAnchor anchor
          collection anchor true do
            return .members (collectionTag tag .members) (← blockMembers fuel [])
        | _, _ =>
          if anchor.isNone ∧ tag.isNone then malformed
          else
            newAnchor anchor
            scalar anchor (scalarTag tag true []) []

/-- A node, or nothing if one of some tokens comes next. -/
def nodeBefore : Nat → Place → List Token → Reader Node
  | 0, _, _ => malformed
  | fuel + 1, place, ends => do
    if ← comesAny ends then return .empty else node fuel place

/-- The items behind dashes at the depth of a name, after those that are `done`. -/
def levelItems : Nat → List Node → Reader (List Node)
  | 0, _ => malformed
  | fuel + 1, done => do
    if ← taken .dash then
      let n ← nodeBefore fuel ⟨true, false⟩ [.dash, .name, .value, .finish]
      levelItems fuel (n :: done)
    else return done.reverse

/-- The items behind dashes up to the end of their indentation. -/
def blockItems : Nat → List Node → Reader (List Node)
  | 0, _ => malformed
  | fuel + 1, done => do
    if ← taken .dash then
      let n ← nodeBefore fuel ⟨true, false⟩ [.dash, .finish]
      blockItems fuel (n :: done)
    else if ← taken .finish then return done.reverse
    else malformed

/-- The members up to the end of their indentation. -/
def blockMembers : Nat → List (Node × Node) → Reader (List (Node × Node))
  | 0, _ => malformed
  | fuel + 1, done => do
    if ← taken .name then
      let k ← nodeBefore fuel ⟨true, true⟩ [.name, .value, .finish]
      let v ← memberValue fuel ⟨true, true⟩ [.name, .value, .finish]
      blockMembers fuel ((k, v) :: done)
    else if ← taken .finish then return done.reverse
    else malformed

/-- The value of a member, nothing where there is no colon. -/
def memberValue : Nat → Place → List Token → Reader Node
  | 0, _, _ => malformed
  | fuel + 1, place, ends => do
    if ← taken .value then nodeBefore fuel place ends else return .empty

/-- The items up to the closing bracket. A name among them is an object of one member. -/
def flowItems : Nat → List Node → Reader (List Node)
  | 0, _ => malformed
  | fuel + 1, done => do
    if ← taken .closeItems then return done.reverse
    if !done.isEmpty then
      if !(← taken .comma) then malformed
    if ← taken .name then
      let ends := [.comma, .closeItems]
      let k ← nodeBefore fuel ⟨false, false⟩ (.value :: ends)
      let v ← memberValue fuel ⟨false, false⟩ ends
      flowItems fuel (.members .members [(k, v)] :: done)
    else if ← taken .closeItems then return done.reverse
    else
      let n ← node fuel ⟨false, false⟩
      flowItems fuel (n :: done)

/-- The members up to the closing brace. A node without a value is given null. -/
def flowMembers : Nat → List (Node × Node) → Reader (List (Node × Node))
  | 0, _ => malformed
  | fuel + 1, done => do
    if ← taken .closeMembers then return done.reverse
    if !done.isEmpty then
      if !(← taken .comma) then malformed
    if ← taken .name then
      let ends := [.comma, .closeMembers]
      let k ← nodeBefore fuel ⟨false, false⟩ (.value :: ends)
      let v ← memberValue fuel ⟨false, false⟩ ends
      flowMembers fuel ((k, v) :: done)
    else if ← taken .closeMembers then return done.reverse
    else
      let k ← node fuel ⟨false, false⟩
      flowMembers fuel ((k, .empty) :: done)

end

/-- The handles that are there without a directive. -/
def usualHandles : List (String × String) := [("!", "!"), ("!!", tagStart)]

/-- The directives in front of a document. The version is told once, and so is each handle. -/
def directives : Nat → Bool → List (String × String) → Reader Unit
  | 0, _, _ => malformed
  | fuel + 1, versioned, handles => do
    match ← peek with
    | .directive d =>
      skip
      match d with
      | .version major =>
        if versioned || major ≠ 1 then malformed else directives fuel true handles
      | .handle name text =>
        if handles.any (·.1 = name) then malformed
        else directives fuel versioned ((name, text) :: handles)
      | .other => directives fuel versioned handles
    | _ => modify fun r => { r with handles := handles ++ usualHandles }

/-- The marks behind a document, after which nothing may follow. -/
def ending : Nat → Reader Unit
  | 0 => malformed
  | fuel + 1 => do
    match ← peek with
    | .documentEnd =>
      skip
      ending fuel
    | .textEnd => return ()
    | _ => malformed

/-- The one document, if there is any. Without a mark in front it must not be empty. -/
def document (fuel : Nat) : Reader (Option Node) := do
  let first ← peek
  if first = .textEnd then return none
  let marked := match first with
    | .directive _ => true
    | .documentStart => true
    | _ => false
  let n ← if marked then do
      directives fuel false []
      if !(← taken .documentStart) then malformed
      match ← peek with
      | .directive _ => pure .empty
      | _ => nodeBefore fuel ⟨true, false⟩ [.documentStart, .documentEnd, .textEnd]
    else do
      modify fun r => { r with handles := usualHandles }
      node fuel ⟨true, false⟩
  ending fuel
  return some n

end Reader

/-- The tree of the document that tokens form, if there is one. -/
def Node.ofTokens (ts : List Token) : Except Fault (Option Node) :=
  ((Reader.document (4 * ts.length + 8)).run' { tokens := ts })

end JsonExpect.Yaml
