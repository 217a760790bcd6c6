import JsonExpect.Binary64.Arithmetic
import JsonExpect.Json.Numeral
import JsonExpect.Json.Quoted
import JsonExpect.Yaml.Fault

/-!
# Numbers

How integers and doubles are written: `isInteger` and `isDouble` tell the plain scalars that are
numbers, and `readInteger` and `readDouble` what a scalar says that claims to be one. Integers may
be binary, octal behind a zero, or hexadecimal, and both kinds may be written in base sixty, with
colons between their digits. Underscores do not count.
-/

namespace JsonExpect.Yaml

/-- A text without its sign, and whether that is a minus. -/
def splitSign : List Char → Bool × List Char
  | '-' :: cs => (true, cs)
  | '+' :: cs => (false, cs)
  | cs => (false, cs)

/-- A digit or an underscore. -/
def isDigitOrFiller (c : Char) : Bool := c.isDigit || c = '_'

/-- A digit of a base, or an underscore. -/
def isBaseDigitOrFiller (base : Nat) (c : Char) : Bool :=
  c = '_' || (Json.hexValue? c).any (· < base)

/-- Digits without the underscores among them. -/
def withoutFillers (cs : List Char) : List Char := cs.filter (· ≠ '_')

/-- The text cut at its colons. -/
def splitColons : List Char → List (List Char)
  | [] => [[]]
  | c :: cs =>
    if c = ':' then [] :: splitColons cs
    else (splitColons cs).modifyHead (c :: ·)

/-- Whether a text is a digit in base sixty that is not the first one. -/
def isSixty : List Char → Bool
  | [d] => d.isDigit
  | [a, b] => '0' ≤ a && a ≤ '5' && b.isDigit
  | _ => false

/-- Whether a plain scalar is an integer. -/
def isInteger (cs : List Char) : Bool :=
  match (splitSign cs).2 with
  | [] => false
  | '0' :: 'b' :: ds => !ds.isEmpty && ds.all (isBaseDigitOrFiller 2)
  | '0' :: 'x' :: ds => !ds.isEmpty && ds.all (isBaseDigitOrFiller 16)
  | '0' :: ds => ds.all (isBaseDigitOrFiller 8)
  | c :: ds =>
    match splitColons ds with
    | whole :: sixties => c.isDigit && whole.all isDigitOrFiller && sixties.all isSixty
    | [] => false

/-- Whether a text is nothing, or the exponent of a double, whose sign must be there. -/
def isExponent : List Char → Bool
  | [] => true
  | e :: sign :: ds =>
    (e = 'e' || e = 'E') && (sign = '-' || sign = '+') && !ds.isEmpty && ds.all Char.isDigit
  | _ => false

/-- Whether a text is what stands before and behind the point of a double: digits, and then maybe an
exponent, or digits in base sixty. -/
def isPointed (whole fraction : List Char) : Bool :=
  match splitColons whole with
  | [] => false
  | [ds] => ds.all isDigitOrFiller && isExponent (fraction.dropWhile isDigitOrFiller)
  | ds :: sixties =>
    ds.all isDigitOrFiller && sixties.all isSixty && fraction.all isDigitOrFiller

/-- Whether a plain scalar is a double. Without a digit before the point there is no sign either,
and a digit right behind the point. -/
def isDouble (cs : List Char) : Bool :=
  let body := (splitSign cs).2
  if String.ofList body ∈ [".inf", ".Inf", ".INF"] then true
  else if String.ofList cs ∈ [".nan", ".NaN", ".NAN"] then true
  else
    match cs with
    | '.' :: c :: more => c.isDigit && isExponent (more.dropWhile isDigitOrFiller)
    | _ =>
      match body.dropWhile (· ≠ '.') with
      | [] => false
      | _ :: fraction =>
        body.head?.any Char.isDigit && isPointed (body.takeWhile (· ≠ '.')) fraction

/-- The mark that may stand in front of the digits of a base. -/
def baseMark? : Nat → Option Char
  | 2 => some 'b'
  | 8 => some 'o'
  | 16 => some 'x'
  | _ => none

/-- Digits of a base without the mark in front of them. -/
def withoutBaseMark (base : Nat) (cs : List Char) : List Char :=
  match cs with
  | '0' :: c :: ds => if baseMark? base = some c.toLower then ds else cs
  | cs => cs

/-- The integer that a text writes in a base, with blanks around it and a sign if wanted. -/
def integerOf (base : Nat) (text : List Char) : Except Fault Int :=
  let (negative, body) := splitSign ((trimBlanks text).map toAsciiDigit)
  let ds := withoutBaseMark base body
  let run := ds.takeWhile Char.isDigit
  if base = 10 ∧ longestNumeral < run.length then .error (.longNumeral run.length)
  else if ds ≠ [] ∧ ds.all (fun c => (Json.hexValue? c).any (· < base)) then
    let n : Int := ds.foldl (fun n c => base * n + (Json.hexValue? c).getD 0) 0
    .ok (if negative then -n else n)
  else .error (.notInteger base text)

/-- The integer that a text without sign and underscores writes. -/
def readNatural (cs : List Char) : Except Fault Int :=
  match cs with
  | [] => .error .noNumeral
  | ['0'] => .ok 0
  | '0' :: 'b' :: ds => integerOf 2 ds
  | '0' :: 'x' :: ds => integerOf 16 ds
  | '0' :: _ => integerOf 8 cs
  | _ =>
    if ':' ∈ cs then
      ((splitColons cs).mapM (integerOf 10)).map fun digits =>
        digits.foldl (fun n d => 60 * n + d) 0
    else integerOf 10 cs

/-- The integer that a text writes. -/
def readInteger (text : List Char) : Except Fault Int :=
  match withoutFillers text with
  | [] => .error .noNumeral
  | cs =>
    let (negative, body) := splitSign cs
    (readNatural body).map fun n => if negative then -n else n

/-- The double that digits, a point, and an exponent write, if they do. -/
def decimal? (negative : Bool) (cs : List Char) : Option Binary64 :=
  let (whole, rest) := Json.spanDigits cs
  let (fraction, rest) := match rest with
    | '.' :: rest => Json.spanDigits rest
    | rest => ([], rest)
  let (exponent, rest) := Json.spanExponent rest
  if rest = [] ∧ ¬ (whole = [] ∧ fraction = []) then
    some (.ofDecimal negative (Json.natOfDigits (whole ++ fraction))
      (exponent.getD 0 - fraction.length))
  else none

/-- The double that a text in small letters writes, with blanks around it and a sign if wanted. -/
def doubleOf (text : List Char) : Except Fault Binary64 :=
  let (negative, body) := splitSign ((trimBlanks text).map toAsciiDigit)
  if String.ofList body ∈ ["inf", "infinity"] then .ok (.infinity negative)
  else if String.ofList body = "nan" then .ok .nan
  else
    match decimal? negative body with
    | some x => .ok x
    | none => .error (.notDouble text)

/-- The sum of digits in base sixty, the last one first, each with its factor. -/
def sumSixties (total : Binary64) (factor : Nat) : List Binary64 → Except Fault Binary64
  | [] => .ok total
  | d :: ds =>
    match Binary64.ofNat? factor with
    | some f => sumSixties (total.add (d.mul f)) (60 * factor) ds
    | none => .error .largeFactor

/-- The double that a text without sign and underscores writes. -/
def readMagnitude (cs : List Char) : Except Fault Binary64 :=
  if String.ofList cs = ".inf" then .ok (.infinity false)
  else if String.ofList cs = ".nan" then .ok .nan
  else if ':' ∈ cs then
    match (splitColons cs).mapM doubleOf with
    | .ok digits => sumSixties (.zero false) 1 digits.reverse
    | .error e => .error e
  else doubleOf cs

/-- The double that a text writes. -/
def readDouble (text : List Char) : Except Fault Binary64 :=
  match (withoutFillers text).map Char.toLower with
  | [] => .error .noNumeral
  | cs =>
    let (negative, body) := splitSign cs
    (readMagnitude body).map fun x => if negative then x.neg else x

end JsonExpect.Yaml
