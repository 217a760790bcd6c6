import JsonExpect.Binary64.Basic

/-!
# The shortest decimal of a double

`Binary64.digits` selects the fewest decimal digits that read back as the double, and of those the
nearest to its value. `DecimalLayout` holds the decisions on how digits are written; `Binary64.text`
writes a double in a layout. The selection is exact integer arithmetic on the interval of reals that
round to the double, whose ends belong to it when the significand is even.
-/

namespace JsonExpect

/-- A positive decimal `digits * 10 ^ exponent`. -/
structure Decimal where
  digits : Nat
  exponent : Int
deriving DecidableEq, Repr

/-- The same decimal without trailing zeros among its digits. -/
def Decimal.trim (d : Decimal) : Decimal :=
  if h : d.digits ≠ 0 ∧ d.digits % 10 = 0 then trim ⟨d.digits / 10, d.exponent + 1⟩ else d
termination_by d.digits
decreasing_by omega

namespace Binary64

/-- A double's value and the ends of the reals that round to it, as numerators over one
denominator. -/
structure RoundingInterval where
  low : Nat
  value : Nat
  high : Nat
  den : Nat
  closed : Bool

/-- The interval of a finite nonzero double. Below a power of two the neighbour is half as far. -/
def roundingInterval (x : Binary64) : RoundingInterval :=
  let (m, q) := x.significand
  let below := if m = pow2 52 ∧ -1074 < q then 1 else 2
  let scale := if q < 2 then 1 else pow2 (q - 2).toNat
  let den := if q < 2 then pow2 (2 - q).toNat else 1
  ⟨(4 * m - below) * scale, 4 * m * scale, (4 * m + 2) * scale, den, m % 2 = 0⟩

/-- Whether the decimal reads back as the double. -/
def RoundingInterval.holds (i : RoundingInterval) (d : Decimal) : Bool :=
  let num := if d.exponent < 0 then d.digits else d.digits * pow10 d.exponent.toNat
  let den := if d.exponent < 0 then pow10 (-d.exponent).toNat else 1
  if i.closed then i.low * den ≤ num * i.den && num * i.den ≤ i.high * den
  else i.low * den < num * i.den && num * i.den < i.high * den

/-- The power of ten just above the value: the least `e` with value below `10 ^ e`. -/
def RoundingInterval.magnitude (i : RoundingInterval) : Int :=
  let guess : Int := (((i.value.log2 : Int) - i.den.log2) * 30103).fdiv 100000
  let below (e : Int) : Bool :=
    if e < 0 then i.value * pow10 (-e).toNat < i.den else i.value < i.den * pow10 e.toNat
  if below (guess - 1) then guess - 1
  else if below guess then guess
  else if below (guess + 1) then guess + 1
  else guess + 2

/-- The decimals next to the value on the grid `10 ^ e` that read back, the nearer one if both do
and the even one at equal distance. -/
def RoundingInterval.onGrid (i : RoundingInterval) (e : Int) : Option Decimal :=
  let num := if e < 0 then i.value * pow10 (-e).toNat else i.value
  let den := if e < 0 then i.den else i.den * pow10 e.toNat
  let below : Decimal := ⟨num / den, e⟩
  let above : Decimal := ⟨num / den + 1, e⟩
  match decide (0 < below.digits) && i.holds below, i.holds above with
  | true, true => some ⟨roundHalfEven num den, e⟩
  | true, false => some below
  | false, true => some above
  | false, false => none

/-- The fewest digits that read back, nearest to the value of a finite nonzero double. Seventeen
digits always do. -/
def decimal (x : Binary64) : Decimal :=
  let i := x.roundingInterval
  let lead := i.magnitude
  match (List.range 17).findSome? fun (n : Nat) => i.onGrid (lead - n - 1) with
  | some d => d.trim
  | none => ⟨i.value / i.den, 0⟩

end Binary64

/-- How the digits of a double are laid out. -/
structure DecimalLayout where
  /-- The least exponent of the leading digit that is written without an exponent mark. -/
  leastPlain : Int
  /-- The greatest such exponent. -/
  greatestPlain : Int
  /-- The fewest digits of a written exponent. -/
  exponentWidth : Nat
  nan : String
  infinity : String

/-- The digits with a point, or with an exponent mark outside the plain range. -/
def DecimalLayout.write (l : DecimalLayout) (d : Decimal) : String :=
  let ds := Nat.toDigits 10 d.digits
  let lead : Int := ds.length + d.exponent - 1
  if l.leastPlain ≤ lead ∧ lead ≤ l.greatestPlain then
    if lead < 0 then
      "0." ++ String.ofList (List.replicate (-lead - 1).toNat '0' ++ ds)
    else
      let whole := lead.toNat + 1
      let padded := ds ++ List.replicate (whole - ds.length) '0'
      let part := padded.drop whole
      String.ofList (padded.take whole) ++ "." ++ if part.isEmpty then "0" else String.ofList part
  else
    let tail := ds.drop 1
    let exponent := Nat.toDigits 10 lead.natAbs
    String.ofList (ds.take 1) ++ (if tail.isEmpty then "" else "." ++ String.ofList tail) ++ "e" ++
      (if lead < 0 then "-" else "+") ++
      String.ofList (List.replicate (l.exponentWidth - exponent.length) '0' ++ exponent)

/-- The text of a double in a layout. -/
def Binary64.text (l : DecimalLayout) (x : Binary64) : String :=
  let sign := if x.isNegative then "-" else ""
  if x.isNaN then l.nan
  else if x.isInfinite then sign ++ l.infinity
  else if x.isZero then sign ++ "0.0"
  else sign ++ l.write x.decimal

end JsonExpect
