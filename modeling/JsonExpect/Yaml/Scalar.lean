import JsonExpect.Yaml.Base64
import JsonExpect.Yaml.Node.Basic
import JsonExpect.Yaml.Number
import JsonExpect.Yaml.Timestamp

/-!
# Scalars

A scalar without quotes and tag is read as what it is written like: `Tag.ofPlain` tells whether that
is a null, a truth value, a number, a moment, one of two names with a meaning of their own, or else
a text. `Tag.read` gives the value of a scalar under its tag, or says why it has none.
-/

namespace JsonExpect.Yaml

/-- The words for truth values, in small letters. -/
def truthWords : List (String × Bool) :=
  [("yes", true), ("true", true), ("on", true), ("no", false), ("false", false), ("off", false)]

/-- The truth value that a text in small letters writes. -/
def truth? (cs : List Char) : Option Bool :=
  (truthWords.find? fun w => w.1.toList = cs).map (·.2)

/-- Whether a text is in small letters, in large ones, or has a large letter in front only. -/
def isEvenlyCased (cs : List Char) : Bool :=
  let small := cs.map Char.toLower
  cs = small || cs = cs.map Char.toUpper ||
    cs = small.head?.toList.map Char.toUpper ++ small.tail

/-- The text without a line feed at its end. -/
def withoutLineEnd (cs : List Char) : List Char :=
  if cs.getLast? = some '\n' then cs.dropLast else cs

namespace Tag

/-- What a scalar without quotes and tag is read as. A line feed at its end does not count. -/
def ofPlain (text : List Char) : Tag :=
  let cs := if text = ['\n'] then text else withoutLineEnd text
  if isEvenlyCased cs ∧ (truth? (cs.map Char.toLower)).isSome then .bool
  else if isDouble cs then .float
  else if isInteger cs then .int
  else if cs = ['<', '<'] then .merge
  else if String.ofList cs ∈ ["", "~", "null", "Null", "NULL"] then .null
  else if isMoment cs then .moment
  else if cs = ['='] then .whole
  else if cs = ['!'] ∨ cs = ['&'] ∨ cs = ['*'] then .other
  else .string

/-- The value of a text under a tag for scalars. -/
def read (text : List Char) : Tag → Except Fault Value
  | .null => .ok .null
  | .bool =>
    let small := text.map Char.toLower
    match truth? small with
    | some b => .ok (.bool b)
    | none => .error (.notTruth small)
  | .int => (readInteger text).map .int
  | .float => (readDouble text).map .float
  | .binary =>
    match Base64.decode? text with
    | some data => .ok (.bytes .fixed data)
    | none => .error .malformed
  | .moment => (readMoment (withoutLineEnd text)).map .moment
  | .string => .ok (.string (String.ofList text))
  | _ => .error .malformed

end Tag

end JsonExpect.Yaml
