import JsonExpect.Binary64.Basic

/-!
# Sums and products of doubles

A sum or a product of doubles is worked out exactly, as an integer times a power of two, and then
rounded once.
-/

namespace JsonExpect.Binary64

/-- The double of the same magnitude and the other sign. -/
def neg (x : Binary64) : Binary64 := ofMagnitude (!x.isNegative) x.magnitude

/-- The double nearest to `m * 2 ^ q`. -/
def ofDyadic (negative : Bool) (m : Nat) (q : Int) : Binary64 :=
  if q < 0 then ofRatio negative m (pow2 (-q).toNat)
  else ofRatio negative (m * pow2 q.toNat) 1

/-- The double nearest to a natural, if that is not infinity. -/
def ofNat? (n : Nat) : Option Binary64 :=
  let x := ofRatio false n 1
  if x.isInfinite then none else some x

/-- The product of two doubles. -/
def mul (x y : Binary64) : Binary64 :=
  let negative := x.isNegative != y.isNegative
  if x.isNaN || y.isNaN then nan
  else if x.isInfinite || y.isInfinite then
    if x.isZero || y.isZero then nan else infinity negative
  else
    let (m, q) := x.significand
    let (n, r) := y.significand
    ofDyadic negative (m * n) (q + r)

/-- A finite double as a multiple of `2 ^ q`, for a `q` not above its own. -/
def unitsOf (q : Int) (x : Binary64) : Int :=
  let (m, r) := x.significand
  let n : Int := m * pow2 (r - q).toNat
  if x.isNegative then -n else n

/-- The sum of two doubles. -/
def add (x y : Binary64) : Binary64 :=
  if x.isNaN || y.isNaN then nan
  else if x.isInfinite then
    if y.isInfinite && x.isNegative != y.isNegative then nan else x
  else if y.isInfinite then y
  else
    let q := min x.significand.2 y.significand.2
    let total := x.unitsOf q + y.unitsOf q
    if total = 0 then zero (x.isNegative && y.isNegative)
    else ofDyadic (total < 0) total.natAbs q

end JsonExpect.Binary64
