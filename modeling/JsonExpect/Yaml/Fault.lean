import JsonExpect.Text.Digit
import JsonExpect.Value.Literal

/-!
# What is wrong with a document

A document may be malformed, which is said without a reason. Apart from that a scalar may claim to
be a number, a truth value or a moment that it does not write; these faults have messages of their
own.
-/

namespace JsonExpect.Yaml

/-- The part of a moment that lies outside of the calendar or the day. -/
inductive MomentPart where
  | year (n : Nat)
  | month
  | day
  | hour
  | minute
  | second
  /-- An offset of a day or more, in minutes. -/
  | offset (minutes : Int)
deriving DecidableEq, Repr

/-- Why a text is no document. -/
inductive Fault where
  | malformed
  /-- A decimal numeral has too many digits. -/
  | longNumeral (digits : Nat)
  /-- A text is no integer in a base. -/
  | notInteger (base : Nat) (text : List Char)
  /-- Nothing is written where an integer or a double should be. -/
  | noNumeral
  | notDouble (text : List Char)
  /-- A factor of sixty has been raised beyond the doubles. -/
  | largeFactor
  | notTruth (text : List Char)
  | notMoment
  /-- A moment is asked of a collection. -/
  | momentOfCollection
  | outside (part : MomentPart)
  /-- A character number beyond the last character; `large` tells that it has no 31 bits. -/
  | noCharacter (large : Bool)
  /-- A collection stands inside itself, and has no end as a value. -/
  | endless
deriving DecidableEq, Repr

namespace MomentPart

/-- A span of time in literal notation: whole days, downwards, and the seconds above them. -/
def spanLiteral (minutes : Int) : String :=
  let seconds := minutes.fmod 1440 * 60
  s!"datetime.timedelta(days={minutes.fdiv 1440}" ++
    (if seconds = 0 then "" else s!", seconds={seconds}") ++ ")"

def message : MomentPart → String
  | .year n => s!"year {n} is out of range"
  | .month => "month must be in 1..12"
  | .day => "day is out of range for month"
  | .hour => "hour must be in 0..23"
  | .minute => "minute must be in 0..59"
  | .second => "second must be in 0..59"
  | .offset minutes =>
    "offset must be a timedelta strictly between -timedelta(hours=24) and timedelta(hours=24), " ++
      "not " ++ spanLiteral minutes ++ "."

end MomentPart

namespace Fault

/-- A text between quotes, as literals show it. -/
def quoted (text : List Char) : String := literalString (String.ofList text)

def message : Fault → String
  | .malformed => "invalid YAML"
  | .longNumeral digits => longNumeralMessage digits
  | .notInteger base text =>
    s!"invalid literal for int() with base {base}: " ++
      String.ofList ((quoted text).toList.take 200)
  | .noNumeral => "string index out of range"
  | .notDouble text => "could not convert string to float: " ++ quoted text
  | .largeFactor => "int too large to convert to float"
  | .notTruth text => quoted text
  | .notMoment => "'NoneType' object has no attribute 'groupdict'"
  | .momentOfCollection => "expected string or bytes-like object, got 'list'"
  | .outside part => part.message
  | .noCharacter false => "chr() arg not in range(0x110000)"
  | .noCharacter true => "Python int too large to convert to C int"
  | .endless => "a collection stands inside itself"

end Fault

end JsonExpect.Yaml
