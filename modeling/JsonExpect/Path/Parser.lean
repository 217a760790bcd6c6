import JsonExpect.Path.Basic
import JsonExpect.Path.Error
import JsonExpect.Json.Numeral

/-!
# Reading paths

A text is cut at its unescaped dots into segments. A segment ends in brackets that hold an index or
an asterisk; what stands before them is a key, and a segment made of brackets alone has none.
Bracket contents that are neither are dropped. Backslashes are undone mark by mark: dots when the
segment is cut, brackets and asterisks in the key.
-/

namespace JsonExpect.Path

/-- The text cut at its dots. A dot does not cut while `escaped`: after a backslash, up to the next
character that is neither a backslash nor an unescaped dot. -/
def segments (escaped : Bool) : List Char → List (List Char)
  | [] => [[]]
  | c :: cs =>
    if c = '\\' then (segments true cs).modifyHead (c :: ·)
    else if c = '.' ∧ ¬ escaped then [] :: segments false cs
    else (segments false cs).modifyHead (c :: ·)

/-- Drops the backslash directly before each `mark`. -/
def unescape (mark : Char) : List Char → List Char
  | [] => []
  | c :: cs =>
    match cs with
    | [] => [c]
    | d :: rest =>
      if c = '\\' ∧ d = mark then mark :: unescape mark rest else c :: unescape mark (d :: rest)

/-- Whether a character is escaped, given the text before it read backwards: an odd number of
backslashes stands there. -/
def isEscaped (before : List Char) : Bool :=
  (before.takeWhile (· = '\\')).length % 2 = 1

/-- Looks backwards for the nearest unescaped opening bracket: the text passed on the way, put
before `content`, and the text before the bracket. -/
def openBracket? (content : List Char) : List Char → Option (List Char × List Char)
  | [] => none
  | c :: before =>
    if c = '[' ∧ ¬ isEscaped before then some (content, before)
    else openBracket? (c :: content) before

theorem length_lt_of_openBracket? {content before found rest : List Char}
    (h : openBracket? content before = some (found, rest)) : rest.length < before.length := by
  fun_induction openBracket? content before with
  | case1 => simp at h
  | case2 => cases h; simp
  | case3 content c before _ ih => exact Nat.lt_succ_of_lt (ih h)

/-- The bracket contents at the end of a segment that is read backwards, put before `found`, and
what is left of the segment. -/
def peelBrackets (found : List (List Char)) : List Char → List (List Char) × List Char
  | [] => (found, [])
  | c :: before =>
    if c = ']' ∧ ¬ isEscaped before then
      match _h : openBracket? [] before with
      | some (content, rest) => peelBrackets (content :: found) rest
      | none => (found, c :: before)
    else (found, c :: before)
termination_by cs => cs.length
decreasing_by
  have := length_lt_of_openBracket? (by assumption)
  simp only [List.length_cons]; omega

/-- The component of a key whose dots have been unescaped. -/
def keyComponent (key : List Char) : Component :=
  let key := unescape ']' (unescape '[' key)
  if key = ['*'] then .anyKey else .key (String.ofList (unescape '*' key))

/-- The component of a bracket content, none where the content is malformed. -/
def bracketComponent (content : List Char) : Except PathError (Option Component) :=
  if content = ['*'] then .ok (some .anyIndex)
  else if content ≠ [] ∧ content.all Char.isDigit then
    if longestNumeral < content.length then .error (.indexTooLong content.length)
    else .ok (some (.index (Json.natOfDigits content)))
  else .ok none

/-- The components of brackets, malformed ones left out. -/
def bracketComponents : List (List Char) → Except PathError (List Component)
  | [] => .ok []
  | content :: rest =>
    match bracketComponent content with
    | .error e => .error e
    | .ok found =>
      match bracketComponents rest with
      | .error e => .error e
      | .ok cs => .ok (found.toList ++ cs)

/-- The components of a segment. -/
def segmentComponents (segment : List Char) : Except PathError (List Component) :=
  let (brackets, rest) := peelBrackets [] (unescape '.' segment).reverse
  let key := if rest = [] ∧ brackets ≠ [] then [] else [keyComponent rest.reverse]
  match bracketComponents brackets with
  | .error e => .error e
  | .ok cs => .ok (key ++ cs)

/-- The components of segments in turn. -/
def segmentsComponents : List (List Char) → Except PathError (List Component)
  | [] => .ok []
  | s :: rest =>
    match segmentComponents s with
    | .error e => .error e
    | .ok cs =>
      match segmentsComponents rest with
      | .error e => .error e
      | .ok ds => .ok (cs ++ ds)

/-- The components that a text writes. -/
def parseChars (text : List Char) : Except PathError (List Component) :=
  segmentsComponents (segments false text)

/-- The path that a text writes. -/
def parse (text : String) : Except PathError Path :=
  match parseChars text.toList with
  | .error e => .error e
  | .ok cs => .ok ⟨cs⟩

/-- What a list that is offered as a path may hold. -/
inductive Item where
  | component (c : Component)
  | other (v : Value)

/-- The components of items, unless one of them is something else. -/
def ofItems? : List Item → Except PathError Path
  | [] => .ok root
  | .component c :: rest =>
    match ofItems? rest with
    | .ok p => .ok ⟨c :: p.components⟩
    | .error e => .error e
  | .other v :: _ => .error (.notComponent v)

/-- The path that a raw value stands for: a text is parsed, and a collection, whose items are never
components, must be empty. -/
def ofValue? : Value → Except PathError Path
  | .string s => parse s
  | .array items => ofItems? (items.map .other)
  | .tuple items => ofItems? (items.map .other)
  | .object members => ofItems? (members.map fun m => .other m.1.value)
  | .set items => ofItems? (items.map fun k => .other k.value)
  | .bytes _ data => ofItems? (data.map fun b => .other (.int b.toNat))
  | v => .error (.notSequence v)

end JsonExpect.Path
