/-!
# Decimal digits

The decimal digits of all scripts, which come in runs of ten from zero to nine. The table follows
the general categories of Unicode 14. A number may be written with the digits of any script, and of
several. Decimal numerals have at most `longestNumeral` digits, whether they are read or written.
Blanks are the characters that count as white space.
-/

namespace JsonExpect

/-- The most digits of a decimal numeral. -/
def longestNumeral : Nat := 4300

/-- What is said of a numeral with too many digits. -/
def longNumeralMessage (digits : Nat) : String :=
  s!"Exceeds the limit ({longestNumeral} digits) for integer string conversion: value has " ++
    s!"{digits} digits; use sys.set_int_max_str_digits() to increase the limit"

/-- What is said of an integer whose numeral would have too many digits. -/
def longIntegerMessage : String :=
  s!"Exceeds the limit ({longestNumeral} digits) for integer string conversion; " ++
    "use sys.set_int_max_str_digits() to increase the limit"

/-- Whether the numeral of an integer would have too many digits. -/
def hasLongNumeral (n : Int) : Bool := Nat.pow 10 longestNumeral ≤ n.natAbs

/-- The least number that is too long to be written, under a name, so that nothing computes it. -/
theorem exists_hasLongNumeral :
    ∃ i : Nat, i = Nat.pow 10 longestNumeral ∧ hasLongNumeral i = true := by
  refine ⟨_, rfl, ?_⟩
  unfold hasLongNumeral
  generalize Nat.pow 10 longestNumeral = n
  exact decide_eq_true (Nat.le_of_eq (Int.natAbs_natCast n).symm)

/-- The code points of the zeros, in ascending order. -/
def zeroDigits : List Nat :=
  [0x30, 0x660, 0x6F0, 0x7C0, 0x966, 0x9E6, 0xA66, 0xAE6, 0xB66, 0xBE6, 0xC66, 0xCE6, 0xD66, 0xDE6,
    0xE50, 0xED0, 0xF20, 0x1040, 0x1090, 0x17E0, 0x1810, 0x1946, 0x19D0, 0x1A80, 0x1A90, 0x1B50,
    0x1BB0, 0x1C40, 0x1C50, 0xA620, 0xA8D0, 0xA900, 0xA9D0, 0xA9F0, 0xAA50, 0xABF0, 0xFF10, 0x104A0,
    0x10D30, 0x11066, 0x110F0, 0x11136, 0x111D0, 0x112F0, 0x11450, 0x114D0, 0x11650, 0x116C0,
    0x11730, 0x118E0, 0x11950, 0x11C50, 0x11D50, 0x11DA0, 0x16A60, 0x16AC0, 0x16B50, 0x1D7CE,
    0x1D7D8, 0x1D7E2, 0x1D7EC, 0x1D7F6, 0x1E140, 0x1E2F0, 0x1E950, 0x1FBF0]

/-- The value of a decimal digit. -/
def digitValue? (c : Char) : Option Nat :=
  (zeroDigits.find? fun n => n ≤ c.toNat && c.toNat < n + 10).map (c.toNat - ·)

def isDecimalDigit (c : Char) : Bool := (digitValue? c).isSome

/-- The number that decimal digits write. -/
def natOfDecimals (digits : List Char) : Nat :=
  digits.foldl (fun n c => 10 * n + (digitValue? c).getD 0) 0

/-- The digit from zero to nine that stands for the same value, any other character as it is. -/
def toAsciiDigit (c : Char) : Char :=
  match digitValue? c with
  | some d => Nat.digitChar d
  | none => c

/-- Characters that count as white space. -/
def isBlankChar (c : Char) : Bool :=
  let n := c.toNat
  (0x09 ≤ n && n ≤ 0x0D) || (0x1C ≤ n && n ≤ 0x20) || n = 0x85 || n = 0xA0 || n = 0x1680 ||
    (0x2000 ≤ n && n ≤ 0x200A) || n = 0x2028 || n = 0x2029 || n = 0x202F || n = 0x205F || n = 0x3000

/-- The text without the blanks at its ends. -/
def trimBlanks (cs : List Char) : List Char :=
  ((cs.dropWhile isBlankChar).reverse.dropWhile isBlankChar).reverse

end JsonExpect
