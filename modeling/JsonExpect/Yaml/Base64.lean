import JsonExpect.Yaml.Fault

/-!
# Bytes in base 64

Four characters of six bits each write three bytes. Characters that are no digits do not count. The
text ends at the equals signs that fill up its last four characters, and may not end otherwise
before four characters are complete.
-/

namespace JsonExpect.Yaml.Base64

/-- The value of a digit. -/
def digit? (c : Char) : Option Nat :=
  if 'A' ≤ c ∧ c ≤ 'Z' then some (c.toNat - 'A'.toNat)
  else if 'a' ≤ c ∧ c ≤ 'z' then some (c.toNat - 'a'.toNat + 26)
  else if '0' ≤ c ∧ c ≤ '9' then some (c.toNat - '0'.toNat + 52)
  else if c = '+' then some 62
  else if c = '/' then some 63
  else none

/-- The bytes that full groups of six bits write, with `held` bits left over in `value`. -/
def bytes (held value : Nat) : List Nat → List UInt8
  | [] => []
  | d :: ds =>
    let value := 64 * value + d
    if held = 0 then bytes 6 d ds
    else UInt8.ofNat (value / Nat.pow 2 (held - 2)) ::
      bytes (held - 2) (value % Nat.pow 2 (held - 2)) ds

/-- The digits of a text up to its end, given the number of digits and of equals signs since the
last complete group. -/
def digits? (place fill : Nat) : List Char → Option (List Nat)
  | [] => if place = 0 then some [] else none
  | c :: cs =>
    if c = '=' then
      if 2 ≤ place ∧ 4 ≤ place + fill + 1 then some []
      else digits? place (if 2 ≤ place then fill + 1 else fill) cs
    else
      match digit? c with
      | some d => (digits? ((place + 1) % 4) 0 cs).map (d :: ·)
      | none => digits? place fill cs

/-- The bytes that a text of ASCII characters writes. -/
def decode? (cs : List Char) : Option (List UInt8) :=
  if cs.all fun c => c.toNat < 0x80 then (digits? 0 0 cs).map (bytes 0 0) else none

end JsonExpect.Yaml.Base64
