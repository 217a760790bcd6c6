import JsonExpect.Json.Numeral
import JsonExpect.Yaml.Fault

/-!
# Timestamps

A moment is written as year, month and day with dashes between them, and may go on with a time of
day, its fraction and its offset. `Timestamp.ofText?` reads what is written, `isMoment` tells the
plain scalars that are moments, and `Timestamp.moment` says what is wrong with one that does not
exist.
-/

namespace JsonExpect.Yaml

/-- The time of day of a timestamp, as it is written. -/
structure ClockText where
  hour : List Char
  minute : List Char
  second : List Char
  fraction : List Char
  /-- The offset in minutes, if there is one. -/
  offset : Option Int
deriving DecidableEq, Repr

/-- A moment as it is written. -/
structure Timestamp where
  year : List Char
  month : List Char
  day : List Char
  clock : Option ClockText
deriving DecidableEq, Repr

namespace Timestamp

/-- Digits at the front, at least `least` and at most `most`, and the text behind them. -/
def digits? (least most : Nat) (cs : List Char) : Option (List Char × List Char) :=
  let ds := (cs.take most).takeWhile Char.isDigit
  if least ≤ ds.length then some (ds, cs.drop ds.length) else none

/-- The text behind a character, if it begins with it. -/
def after? (c : Char) : List Char → Option (List Char)
  | [] => none
  | d :: cs => if d = c then some cs else none

/-- Blanks on a line. -/
def isGap (c : Char) : Bool := c = ' ' || c = '\t'

/-- The offset that a text writes: none, universal time, or hours and maybe minutes behind a sign.
Blanks may stand before it. -/
def offset? (cs : List Char) : Option (Option Int) :=
  match cs, cs.dropWhile isGap with
  | [], _ => some none
  | _, ['Z'] => some (some 0)
  | _, sign :: rest =>
    if sign = '-' ∨ sign = '+' then do
      let (hours, rest) ← digits? 1 2 rest
      let (minutes, rest) ← match rest with
        | ':' :: rest => digits? 2 2 rest
        | rest => some ([], rest)
      let n : Int := 60 * Json.natOfDigits hours + Json.natOfDigits minutes
      if rest = [] then some (some (if sign = '-' then -n else n)) else none
    else none
  | _, [] => none

/-- The time of day that a text writes. -/
def clock? (cs : List Char) : Option ClockText := do
  let (hour, cs) ← digits? 1 2 cs
  let (minute, cs) ← digits? 2 2 (← after? ':' cs)
  let (second, cs) ← digits? 2 2 (← after? ':' cs)
  let (fraction, cs) := match cs with
    | '.' :: cs => Json.spanDigits cs
    | cs => ([], cs)
  return { hour, minute, second, fraction, offset := ← offset? cs }

/-- The time of day behind a day, with a letter or blanks between them, if there is one. -/
def clockAfterDay? : List Char → Option (Option ClockText)
  | [] => some none
  | c :: cs =>
    if c = 'T' ∨ c = 't' then (clock? cs).map some
    else if isGap c then (clock? (cs.dropWhile isGap)).map some
    else none

/-- The moment that a text writes. -/
def ofText? (cs : List Char) : Option Timestamp := do
  let (year, cs) ← digits? 4 4 cs
  let (month, cs) ← digits? 1 2 (← after? '-' cs)
  let (day, cs) ← digits? 1 2 (← after? '-' cs)
  return { year, month, day, clock := ← clockAfterDay? cs }

/-- The day of a timestamp, if there is one in the calendar. -/
def calendarDay (t : Timestamp) : Except Fault CalendarDay :=
  let year := Json.natOfDigits t.year
  let month := Json.natOfDigits t.month
  let day := Json.natOfDigits t.day
  if year = 0 then .error (.outside (.year year))
  else if month = 0 ∨ 12 < month then .error (.outside .month)
  else if day = 0 ∨ CalendarDay.daysInMonth year month < day then .error (.outside .day)
  else .ok ⟨year, month, day⟩

/-- The microseconds of a fraction of a second; what is finer does not count. -/
def microseconds (fraction : List Char) : Nat :=
  Json.natOfDigits ((fraction ++ List.replicate 6 '0').take 6)

/-- The time of day of a timestamp, if the day has it. -/
def timeOfDay (c : ClockText) : Except Fault TimeOfDay :=
  let hour := Json.natOfDigits c.hour
  let minute := Json.natOfDigits c.minute
  let second := Json.natOfDigits c.second
  if 23 < hour then .error (.outside .hour)
  else if 59 < minute then .error (.outside .minute)
  else if 59 < second then .error (.outside .second)
  else .ok ⟨hour, minute, second, microseconds c.fraction⟩

/-- The moment of a timestamp, if it exists. -/
def moment (t : Timestamp) : Except Fault Moment :=
  match t.clock with
  | none => t.calendarDay.map .day
  | some c =>
    match c.offset.filter fun o => 1440 ≤ o.natAbs with
    | some o => .error (.outside (.offset o))
    | none => do return .time (← t.calendarDay) (← timeOfDay c) c.offset

end Timestamp

/-- Whether a plain scalar is a moment. A day alone has two digits for its month and its day. -/
def isMoment (cs : List Char) : Bool :=
  match Timestamp.ofText? cs with
  | some t => t.clock.isSome || (t.month.length = 2 && t.day.length = 2)
  | none => false

/-- The moment that a text writes. -/
def readMoment (text : List Char) : Except Fault Moment :=
  match Timestamp.ofText? text with
  | some t => t.moment
  | none => .error .notMoment

end JsonExpect.Yaml
