import JsonExpect.Json.Quoted
import JsonExpect.Yaml.Fault
import JsonExpect.Yaml.Cursor

/-!
# Labels of nodes, and directives

A node may be labelled with an anchor, by which an alias means it later, and with a tag. A tag is
written in full between angles, or shortened by a handle between exclamation marks. Directives stand
before a document: one tells the version of the format, others what the handles stand for.
-/

namespace JsonExpect.Yaml

/-- The characters of anchors, of handles and of the names of directives. -/
def isLabelChar (c : Char) : Bool := c.isAlphanum || c = '-' || c = '_'

/-- The characters of a tag behind its handle. -/
def isTagChar (c : Char) : Bool :=
  isLabelChar c ||
    c ∈ [';', '/', '?', ':', '@', '&', '=', '+', '$', ',', '.', '!', '~', '*', '\'', '(', ')',
      '[', ']', '%']

/-- What may follow an anchor or an alias. -/
def endsLabel : List Char → Bool
  | [] => true
  | c :: _ => isSpace c || c ∈ ['?', ':', ',', ']', '}', '%', '@', '\x60']

/-- The anchor or the alias behind its mark, and the place behind it. -/
def anchorName (k : Cursor) : Except Fault (String × Cursor) :=
  let (name, rest) := (k.drop 1).span isLabelChar
  if name ≠ [] ∧ endsLabel rest.rest then .ok (String.ofList name, rest) else .error .malformed

/-- The bytes that escapes of two hexadecimal digits behind percent signs write, and the rest. -/
def percentBytes : List Char → Except Fault (List UInt8 × List Char)
  | '%' :: a :: b :: rest =>
    match Json.hexValue? a, Json.hexValue? b with
    | some m, some n =>
      match percentBytes rest with
      | .ok (bytes, rest) => .ok (UInt8.ofNat (16 * m + n) :: bytes, rest)
      | .error e => .error e
    | _, _ => .error .malformed
  | '%' :: _ => .error .malformed
  | cs => .ok ([], cs)

/-- The text that a tag writes, its escapes read as UTF-8. -/
def unescapeTag : Nat → List Char → Except Fault (List Char)
  | 0, _ => .ok []
  | _, [] => .ok []
  | fuel + 1, c :: cs =>
    if c = '%' then
      match percentBytes (c :: cs) with
      | .error e => .error e
      | .ok (bytes, rest) =>
        match String.fromUTF8? ⟨bytes.toArray⟩, unescapeTag fuel rest with
        | some text, .ok more => .ok (text.toList ++ more)
        | none, _ => .error .malformed
        | _, .error e => .error e
    else (unescapeTag fuel cs).map (c :: ·)

/-- The characters of a tag at a place, and the place behind them. -/
def tagText (k : Cursor) : Except Fault (List Char × Cursor) :=
  let (written, rest) := k.span isTagChar
  if written = [] then .error .malformed
  else (unescapeTag written.length written).map fun text => (text, rest)

/-- The handle at a place: an exclamation mark alone, or label characters between two. In a
directive, that is before a space, one alone is enough. -/
def tagHandle (k : Cursor) : Except Fault (String × Cursor) :=
  match k.rest with
  | '!' :: ' ' :: _ => .ok ("!", k.drop 1)
  | '!' :: _ =>
    let (name, rest) := (k.drop 1).span isLabelChar
    if rest.rest.head? = some '!' then
      .ok (String.ofList ('!' :: name ++ ['!']), rest.drop 1)
    else .error .malformed
  | _ => .error .malformed

/-- A tag as it is written: its handle, if it has one, and what follows. -/
structure TagText where
  handle : Option String
  suffix : String
deriving DecidableEq, Repr

/-- The tag at a place, and the place behind it. -/
def tagAt (k : Cursor) : Except Fault (TagText × Cursor) := do
  let (tag, k) ← match k.rest with
    | '!' :: '<' :: _ => do
      let (suffix, k) ← tagText (k.drop 2)
      if k.rest.head? = some '>' then
        pure ({ handle := none, suffix := String.ofList suffix : TagText }, k.drop 1)
      else throw .malformed
    | _ :: rest =>
      if endsWord rest then pure ({ handle := none, suffix := "!" : TagText }, k.drop 1)
      else do
        let word := rest.takeWhile fun c => !(c = ' ' || isBreak c)
        let (handle, k) ← if '!' ∈ word then tagHandle k else pure ("!", k.drop 1)
        let (suffix, k) ← tagText k
        pure ({ handle := some handle, suffix := String.ofList suffix : TagText }, k)
    | [] => throw .malformed
  if endsPart k.rest then return (tag, k) else throw .malformed

/-- What stands before a document. -/
inductive Directive where
  /-- The version of the format, its first number. -/
  | version (major : Nat)
  /-- What a handle stands for. -/
  | handle (name tagStart : String)
  /-- Anything else, which does not count. -/
  | other
deriving DecidableEq, Repr

/-- The decimal number at a place, and the place behind it. -/
def versionNumber (k : Cursor) : Except Fault (Nat × Cursor) :=
  let (digits, rest) := k.span Char.isDigit
  if digits = [] then .error .malformed
  else if longestNumeral < digits.length then .error (.longNumeral digits.length)
  else .ok (natOfDecimals digits, rest)

/-- The two numbers of a version. -/
def versionAt (k : Cursor) : Except Fault (Directive × Cursor) := do
  let (major, k) ← versionNumber (k.skip (· = ' '))
  if k.rest.head? = some '.' then
    let (_, k) ← versionNumber (k.drop 1)
    if endsPart k.rest then return (.version major, k) else throw .malformed
  else throw .malformed

/-- A handle and what it stands for. -/
def handleAt (k : Cursor) : Except Fault (Directive × Cursor) := do
  let (name, k) ← tagHandle (k.skip (· = ' '))
  if k.rest.head? = some ' ' then
    let (text, k) ← tagText (k.skip (· = ' '))
    if endsPart k.rest then return (.handle name (String.ofList text), k) else throw .malformed
  else throw .malformed

/-- The directive at a place, and the place behind its line. -/
def directiveAt (k : Cursor) : Except Fault (Directive × Cursor) := do
  let (name, k) := (k.drop 1).span isLabelChar
  if name = [] ∨ !endsPart k.rest then throw .malformed
  let (directive, k) ←
    if name = "YAML".toList then versionAt k
    else if name = "TAG".toList then handleAt k
    else pure (.other, k.skip (!isBreak ·))
  match k.endLine? with
  | some k => return (directive, k)
  | none => throw .malformed

end JsonExpect.Yaml
