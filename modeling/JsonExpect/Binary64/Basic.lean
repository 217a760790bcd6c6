/-!
# Doubles by their bits

A `Binary64` is a double of the binary interchange format, held as its 64 bits. Nothing here
computes in floating point: a double is decoded to `m * 2 ^ q` with natural `m`, equality is decided
on the bits, and a quotient of naturals is rounded once, to the nearest double with ties to the even
neighbour. `roundHalfEven` is the rounding of a quotient to a natural that all of this rests on.
-/

namespace JsonExpect

/-- Two to the power of `k`. -/
abbrev pow2 (k : Nat) : Nat := Nat.pow 2 k

/-- Ten to the power of `k`. -/
abbrev pow10 (k : Nat) : Nat := Nat.pow 10 k

/-- The quotient `num / den` rounded to the nearest natural, a half to the even neighbour. -/
def roundHalfEven (num den : Nat) : Nat :=
  let q := num / den
  let r := 2 * (num % den)
  if r < den then q
  else if den < r then q + 1
  else if q % 2 = 0 then q else q + 1

/-- A double, as the 64 bits of the binary interchange format. -/
structure Binary64 where
  bits : UInt64
deriving DecidableEq, Repr, Inhabited

namespace Binary64

/-- The bits of positive infinity, which are the least bits above every finite magnitude. -/
def infinityBits : Nat := 2047 * pow2 52

/-- The double of a sign and the 63 bits of a magnitude. -/
def ofMagnitude (negative : Bool) (magnitude : Nat) : Binary64 :=
  ⟨UInt64.ofNat (magnitude + if negative then pow2 63 else 0)⟩

def nan : Binary64 := ofMagnitude false (infinityBits + pow2 51)

def infinity (negative : Bool) : Binary64 := ofMagnitude negative infinityBits

def zero (negative : Bool) : Binary64 := ofMagnitude negative 0

/-- The bits without the sign. -/
def magnitude (x : Binary64) : Nat := x.bits.toNat % pow2 63

def isNegative (x : Binary64) : Bool := pow2 63 ≤ x.bits.toNat

def isNaN (x : Binary64) : Bool := infinityBits < x.magnitude

def isInfinite (x : Binary64) : Bool := x.magnitude = infinityBits

def isZero (x : Binary64) : Bool := x.magnitude = 0

/-- A finite magnitude as `m * 2 ^ q`, the pair `(m, q)`. -/
def significand (x : Binary64) : Nat × Int :=
  let exponent : Nat := x.magnitude / pow2 52
  let fraction : Nat := x.magnitude % pow2 52
  if exponent = 0 then (fraction, -1074) else (pow2 52 + fraction, (exponent : Int) - 1075)

/-- Equality of values: not a number differs from everything, the two zeros are equal. -/
def same (x y : Binary64) : Bool :=
  !x.isNaN && !y.isNaN && (x.bits == y.bits || (x.isZero && y.isZero))

/-- The quotient `num * 2 ^ (-q) / den` as a fraction of naturals. -/
def scaled (num den : Nat) (q : Int) : Nat × Nat :=
  if q < 0 then (num * pow2 (-q).toNat, den) else (num, den * pow2 q.toNat)

/-- The magnitude bits of the double nearest to `num / den`, of infinity when it is too large. A
significand that rounds up to `2 ^ 53` carries into the exponent by itself. -/
def magnitudeOfRatio (num den : Nat) : Nat :=
  if num = 0 then 0
  else
    let guess : Int := max (((num.log2 : Int) - den.log2) - 52) (-1074)
    let (n, d) := scaled num den guess
    let q := if n / d < pow2 52 then max (guess - 1) (-1074) else guess
    let (n, d) := scaled num den q
    min infinityBits (roundHalfEven n d + (q + 1074).toNat * pow2 52)

/-- The double nearest to `num / den`. -/
def ofRatio (negative : Bool) (num den : Nat) : Binary64 :=
  ofMagnitude negative (magnitudeOfRatio num den)

/-- The double nearest to `m * 10 ^ e`. Exponents far outside the range of doubles are answered
before any power of ten is computed. -/
def ofDecimal (negative : Bool) (m : Nat) (e : Int) : Binary64 :=
  let lead : Int := (Nat.toDigits 10 m).length + e
  if m = 0 then zero negative
  else if 310 < lead then infinity negative
  else if lead < -330 then zero negative
  else if e < 0 then ofRatio negative m (pow10 (-e).toNat)
  else ofRatio negative (m * pow10 e.toNat) 1

/-- The double nearest to `n` times a finite double. -/
def timesNat (x : Binary64) (n : Nat) : Binary64 :=
  let (m, q) := x.significand
  if q < 0 then ofRatio x.isNegative (m * n) (pow2 (-q).toNat)
  else ofRatio x.isNegative (m * n * pow2 q.toNat) 1

/-- Whether a finite double has the integer value `n`. -/
def isInt (x : Binary64) (n : Int) : Bool :=
  let (m, q) := x.significand
  let (num, den) := if q < 0 then (m, pow2 (-q).toNat) else (m * pow2 q.toNat, 1)
  !x.isNaN && !x.isInfinite && num = n.natAbs * den && (num = 0 || x.isNegative = decide (n < 0))

end Binary64

end JsonExpect
