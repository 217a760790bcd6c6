import JsonExpect.Value.Basic

/-!
# Numerals of JSON text

A numeral is a sign, whole digits without leading zeros, and optionally a fraction and an exponent.
Without the last two it is an integer of any size, unless the number of its digits is limited;
otherwise it is the double nearest to what it says.
-/

namespace JsonExpect.Json

/-- The number that a run of decimal digits writes. -/
def natOfDigits (digits : List Char) : Nat :=
  digits.foldl (fun n c => 10 * n + (c.toNat - '0'.toNat)) 0

/-- A run of digits and the text after it. -/
def spanDigits (cs : List Char) : List Char × List Char :=
  (cs.takeWhile Char.isDigit, cs.dropWhile Char.isDigit)

/-- The whole digits at the front: a lone zero, or a run that starts otherwise. -/
def spanWhole : List Char → List Char × List Char
  | '0' :: rest => (['0'], rest)
  | cs => spanDigits cs

/-- The digits of a fraction at the front, none where the text does not go on with one. -/
def spanFraction (cs : List Char) : List Char × List Char :=
  match cs with
  | '.' :: rest =>
    match spanDigits rest with
    | ([], _) => ([], cs)
    | found => found
  | _ => ([], cs)

/-- The sign of an exponent. -/
def spanSign : List Char → Bool × List Char
  | '-' :: rest => (true, rest)
  | '+' :: rest => (false, rest)
  | cs => (false, cs)

/-- The exponent at the front, if the text goes on with one. -/
def spanExponent (cs : List Char) : Option Int × List Char :=
  match cs with
  | c :: rest =>
    if c = 'e' ∨ c = 'E' then
      let (negative, rest) := spanSign rest
      match spanDigits rest with
      | ([], _) => (none, cs)
      | (digits, rest) =>
        let n : Int := natOfDigits digits
        (some (if negative then -n else n), rest)
    else (none, cs)
  | [] => (none, cs)

/-- The numeral at the front of a text and what follows it, where an integer may have at most
`digitLimit` digits. -/
def numeral? (digitLimit : Option Nat) (cs : List Char) : Option (Value × List Char) :=
  let (negative, cs) := match cs with
    | '-' :: rest => (true, rest)
    | cs => (false, cs)
  match spanWhole cs with
  | ([], _) => none
  | (whole, rest) =>
    let (fraction, rest) := spanFraction rest
    let (exponent, rest) := spanExponent rest
    if fraction.isEmpty && exponent.isNone then
      if digitLimit.any (· < whole.length) then none
      else
        let n : Int := natOfDigits whole
        some (.int (if negative then -n else n), rest)
    else
      let n := natOfDigits (whole ++ fraction)
      some (.float (.ofDecimal negative n (exponent.getD 0 - fraction.length)), rest)

theorem length_spanDigits (cs : List Char) :
    (spanDigits cs).1.length + (spanDigits cs).2.length = cs.length := by
  rw [← List.length_append, spanDigits, List.takeWhile_append_dropWhile]

theorem length_spanWhole (cs : List Char) :
    (spanWhole cs).1.length + (spanWhole cs).2.length = cs.length := by
  unfold spanWhole
  split
  · simp only [List.length_cons, List.length_nil]; omega
  · exact length_spanDigits _

theorem length_spanFraction_le (cs : List Char) : (spanFraction cs).2.length ≤ cs.length := by
  unfold spanFraction
  split
  · next rest =>
    have h := length_spanDigits rest
    split
    · exact Nat.le_refl _
    · simp only [List.length_cons]; omega
  · exact Nat.le_refl _

theorem length_spanSign_le (cs : List Char) : (spanSign cs).2.length ≤ cs.length := by
  unfold spanSign
  split <;> simp

theorem length_spanExponent_le (cs : List Char) : (spanExponent cs).2.length ≤ cs.length := by
  unfold spanExponent
  split
  · next c rest =>
    have h₁ := length_spanSign_le rest
    have h₂ := length_spanDigits (spanSign rest).2
    split
    · simp only
      split
      · exact Nat.le_refl _
      · next h => rw [h] at h₂; simp only [List.length_cons] at *; omega
    · exact Nat.le_refl _
  · exact Nat.le_refl _

/-- A numeral takes at least one character. -/
theorem length_lt_of_numeral? {limit : Option Nat} {cs rest : List Char} {v : Value}
    (h : numeral? limit cs = some (v, rest)) : rest.length < cs.length := by
  unfold numeral? at h
  simp only at h
  generalize hsign : (match cs with
    | '-' :: rest => (true, rest)
    | cs => (false, cs)) = sign at h
  have hle : sign.2.length ≤ cs.length := by
    subst hsign; split <;> simp
  have hw := length_spanWhole sign.2
  split at h
  · exact absurd h (by simp)
  · next whole after hne hspan =>
    rw [hspan] at hw
    have hpos : 0 < whole.length := by
      cases whole with
      | nil => exact (hne rfl).elim
      | cons => simp
    have hf := length_spanFraction_le after
    have he := length_spanExponent_le (spanFraction after).2
    simp only at hw
    split at h
    · split at h
      · exact absurd h (by simp)
      · simp only [Option.some.injEq, Prod.mk.injEq] at h
        rw [← h.2]; omega
    · simp only [Option.some.injEq, Prod.mk.injEq] at h
      rw [← h.2]; omega

end JsonExpect.Json
