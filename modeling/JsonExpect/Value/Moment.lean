/-!
# Moments

A `Moment` is a day of the calendar, or a time of day on one, with or without its offset from
universal time. Two moments are the same when both are days and equal, or both are times without an
offset and equal, or both are times with an offset and fall together in universal time.
-/

namespace JsonExpect

/-- A day of the calendar, its year from 1 to 9999. -/
structure CalendarDay where
  year : Nat
  month : Nat
  day : Nat
deriving DecidableEq, Repr, Inhabited

/-- A time of day, to the microsecond. -/
structure TimeOfDay where
  hour : Nat
  minute : Nat
  second : Nat
  microsecond : Nat
deriving DecidableEq, Repr, Inhabited

/-- A day, or a time on a day with its offset in minutes, if that is known. -/
inductive Moment where
  | day (d : CalendarDay)
  | time (d : CalendarDay) (t : TimeOfDay) (offset : Option Int)
deriving DecidableEq, Repr, Inhabited

namespace CalendarDay

def isLeapYear (year : Nat) : Bool := year % 4 = 0 && (year % 100 ≠ 0 || year % 400 = 0)

/-- The number of days of a month. -/
def daysInMonth (year month : Nat) : Nat :=
  if month = 2 then if isLeapYear year then 29 else 28
  else if month = 4 || month = 6 || month = 9 || month = 11 then 30
  else 31

/-- The number of days before a year. -/
def daysBeforeYear (year : Nat) : Nat :=
  let y := year - 1
  365 * y + y / 4 - y / 100 + y / 400

/-- The number of the day, counted from the first day of the first year. -/
def ordinal (d : CalendarDay) : Nat :=
  (List.range (d.month - 1)).foldl (fun days m => days + daysInMonth d.year (m + 1))
    (daysBeforeYear d.year + d.day)

end CalendarDay

namespace Moment

/-- The microseconds of a time with an offset, counted in universal time. -/
def universal (d : CalendarDay) (t : TimeOfDay) (offset : Int) : Int :=
  let minutes : Int := (d.ordinal : Int) * 1440 + t.hour * 60 + t.minute - offset
  (minutes * 60 + t.second) * 1000000 + t.microsecond

/-- Whether two moments are the same. -/
def same : Moment → Moment → Bool
  | .day d, .day e => d == e
  | .time d t none, .time e u none => d == e && t == u
  | .time d t (some o), .time e u (some p) => universal d t o == universal e u p
  | _, _ => false

/-- At least `width` decimal digits. -/
def padded (width n : Nat) : String :=
  let ds := Nat.toDigits 10 n
  String.ofList (List.replicate (width - ds.length) '0' ++ ds)

/-- A day as year, month and day. -/
def dayText (d : CalendarDay) : String :=
  padded 4 d.year ++ "-" ++ padded 2 d.month ++ "-" ++ padded 2 d.day

/-- An offset as a sign, hours and minutes. -/
def offsetText (offset : Int) : String :=
  let n := offset.natAbs
  (if offset < 0 then "-" else "+") ++ padded 2 (n / 60) ++ ":" ++ padded 2 (n % 60)

/-- A moment as it is shown by itself. -/
def text : Moment → String
  | .day d => dayText d
  | .time d t offset =>
    dayText d ++ " " ++ padded 2 t.hour ++ ":" ++ padded 2 t.minute ++ ":" ++ padded 2 t.second ++
      (if t.microsecond = 0 then "" else "." ++ padded 6 t.microsecond) ++
      (offset.map offsetText).getD ""

/-- The parts of a time, with the seconds and their fraction left out where they are zero. -/
def timeParts (t : TimeOfDay) : List Nat :=
  [t.hour, t.minute] ++
    if t.microsecond ≠ 0 then [t.second, t.microsecond]
    else if t.second ≠ 0 then [t.second] else []

/-- An offset in literal notation: whole days, downwards, and the seconds above them. -/
def offsetLiteral (offset : Int) : String :=
  let days := offset.fdiv 1440
  let seconds := offset.fmod 1440 * 60
  let parts := (if days = 0 then [] else [s!"days={days}"]) ++
    (if seconds = 0 then [] else [s!"seconds={seconds}"])
  if offset = 0 then "datetime.timezone.utc"
  else "datetime.timezone(datetime.timedelta(" ++ ", ".intercalate parts ++ "))"

/-- A moment in literal notation. -/
def literal : Moment → String
  | .day d => s!"datetime.date({d.year}, {d.month}, {d.day})"
  | .time d t offset =>
    let parts := ([d.year, d.month, d.day] ++ timeParts t).map toString ++
      (offset.map fun o => "tzinfo=" ++ offsetLiteral o).toList
    "datetime.datetime(" ++ ", ".intercalate parts ++ ")"

end Moment

end JsonExpect
