import JsonExpect.Binary64.Basic

/-!
# Doubles with a fixed number of places

`Binary64.fixed` writes the exact value of a double rounded to a number of decimal places,
a half to the even neighbour.
-/

namespace JsonExpect.Binary64

/-- The value times `10 ^ places`, rounded half to even. -/
def scaledDigits (x : Binary64) (places : Nat) : Nat :=
  let (m, q) := x.significand
  if q < 0 then roundHalfEven (m * pow10 places) (pow2 (-q).toNat)
  else m * pow10 places * pow2 q.toNat

/-- A double with exactly `places` digits after the point, infinity by its name. -/
def fixed (places : Nat) (x : Binary64) : String :=
  let sign := if x.isNegative then "-" else ""
  let ds := Nat.toDigits 10 (x.scaledDigits places)
  let ds := List.replicate (places + 1 - ds.length) '0' ++ ds
  let whole := ds.length - places
  if x.isInfinite then sign ++ "inf"
  else
    sign ++ String.ofList (ds.take whole) ++
      if places = 0 then "" else "." ++ String.ofList (ds.drop whole)

end JsonExpect.Binary64
