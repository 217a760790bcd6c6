import JsonExpect.Binary64.Shortest
import JsonExpect.Json.Quoted
import JsonExpect.Value.Basic

/-!
# Writing JSON text

`Value.jsonText?` writes a value on one line, with `", "` and `": "` between its parts; it has no
text when something inside it is not JSON. Tuples are written as arrays, and names that are other
scalars than strings as the strings that their JSON texts are. `Value.indentedText?` spreads the
value over lines.
-/

namespace JsonExpect

/-- Doubles of JSON text: plain between `0.0001` and below `10 ^ 16`, an exponent of two digits or
more elsewhere. -/
def Json.doubleLayout : DecimalLayout := ⟨-4, 15, 2, "NaN", "Infinity"⟩

/-- The string that a member name is written as, if it is a JSON scalar. -/
def Key.jsonName? : Key → Option String
  | .string s => some s
  | .int n => some (toString n)
  | .bool b => some (if b then "true" else "false")
  | .float x => some (x.text Json.doubleLayout)
  | .null => some "null"
  | _ => none

/-- A member name as it stands before its value. -/
def Key.jsonLabel? (k : Key) : Option String := k.jsonName?.map fun name => Json.quote name ++ ": "

namespace Value

mutual

/-- The text of a value on one line. -/
def jsonText? : Value → Option String
  | .null => some "null"
  | .bool b => some (if b then "true" else "false")
  | .int n => some (toString n)
  | .float x => some (x.text Json.doubleLayout)
  | .string s => some (Json.quote s)
  | .array items => (itemTexts? items).map fun ts => "[" ++ ", ".intercalate ts ++ "]"
  | .tuple items => (itemTexts? items).map fun ts => "[" ++ ", ".intercalate ts ++ "]"
  | .object members => (memberTexts? members).map fun ts => "\x7b" ++ ", ".intercalate ts ++ "\x7d"
  | _ => none

/-- The texts of items. -/
def itemTexts? : List Value → Option (List String)
  | [] => some []
  | v :: vs =>
    match jsonText? v, itemTexts? vs with
    | some t, some ts => some (t :: ts)
    | _, _ => none

/-- The texts of members. -/
def memberTexts? : List (Key × Value) → Option (List String)
  | [] => some []
  | (k, v) :: ms =>
    match k.jsonLabel?, jsonText? v, memberTexts? ms with
    | some label, some t, some ts => some ((label ++ t) :: ts)
    | _, _, _ => none

end

/-- Texts on lines of their own between brackets, one step further in than the brackets. -/
def block (opening closing margin : String) (texts : List String) : String :=
  if texts.isEmpty then opening ++ closing
  else
    let inner := "\n" ++ margin ++ "  "
    opening ++ inner ++ ("," ++ inner).intercalate texts ++ "\n" ++ margin ++ closing

mutual

/-- The text of a value with an item or a member on each line. -/
def indentedText? (margin : String) : Value → Option String
  | .array items => (indentedItems? (margin ++ "  ") items).map (block "[" "]" margin)
  | .tuple items => (indentedItems? (margin ++ "  ") items).map (block "[" "]" margin)
  | .object members =>
    (indentedMembers? (margin ++ "  ") members).map (block "\x7b" "\x7d" margin)
  | v => v.jsonText?

/-- The texts of items, each over as many lines as it needs. -/
def indentedItems? (margin : String) : List Value → Option (List String)
  | [] => some []
  | v :: vs =>
    match indentedText? margin v, indentedItems? margin vs with
    | some t, some ts => some (t :: ts)
    | _, _ => none

/-- The texts of members, each over as many lines as it needs. -/
def indentedMembers? (margin : String) : List (Key × Value) → Option (List String)
  | [] => some []
  | (k, v) :: ms =>
    match k.jsonLabel?, indentedText? margin v, indentedMembers? margin ms with
    | some label, some t, some ts => some ((label ++ t) :: ts)
    | _, _, _ => none

end

end Value

end JsonExpect
