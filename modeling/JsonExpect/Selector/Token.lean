import JsonExpect.Text.Digit

/-!
# Words of selectors

A selector is cut into names, numbers, operators and brackets; blanks between them do not count.
Names that are no plain words stand between quotes, where a backslash takes the next character as it
is, and two operators between backquotes.
-/

namespace JsonExpect.Selector

/-- How selectors are put together, in the order of how closely they hold. -/
inductive Operator where
  | descent
  | next
  | union
  | both
  | having
  | lacking
deriving DecidableEq, Repr

/-- How closely an operator holds. -/
def Operator.strength : Operator → Nat
  | .descent => 0
  | .next => 1
  | .union => 2
  | .both => 3
  | .having => 4
  | .lacking => 5

/-- A word of a selector. -/
inductive Token where
  | root
  | asterisk
  | comma
  | colon
  | openBracket
  | closeBracket
  | openGroup
  | closeGroup
  | operator (o : Operator)
  | name (s : String)
  /-- What stands between backquotes. -/
  | quotedOperator (s : String)
  | number (n : Int)
  /-- A number with too many digits. -/
  | longNumber (digits : Nat)
  /-- Characters that are no word. -/
  | wrong
deriving DecidableEq, Repr

/-- Blanks between words. -/
def isBlank (c : Char) : Bool := c = ' ' || c = '\t' || c = '\n'

/-- Ideographs and faces, which may stand in names. -/
def isNameSymbol (c : Char) : Bool :=
  let n := c.toNat
  (0x4E00 ≤ n && n ≤ 0x9FA5) || (0x1F600 ≤ n && n ≤ 0x1F64F)

/-- What a plain name may begin with. -/
def isNameStart (c : Char) : Bool := c.isAlpha || c = '_' || c = '@' || isNameSymbol c

/-- What a plain name may go on with. -/
def isNameRest (c : Char) : Bool := isNameStart c || c.isDigit || c = '-'

/-- The characters up to the closing quote, and the text after it. -/
def unquote? (mark : Char) (done : List Char) : List Char → Option (List Char × List Char)
  | [] => none
  | c :: cs =>
    if c = mark then some (done.reverse, cs)
    else if c = '\\' then
      match cs with
      | [] => none
      | e :: rest => if e = '\n' then none else unquote? mark (e :: done) rest
    else unquote? mark (c :: done) cs

theorem length_lt_of_unquote? {mark : Char} {done cs s rest : List Char}
    (h : unquote? mark done cs = some (s, rest)) : rest.length < cs.length := by
  fun_induction unquote? mark done cs with
  | case1 => simp at h
  | case2 => cases h; simp
  | case3 => simp at h
  | case4 => simp at h
  | case5 => next ih => exact Nat.lt_succ_of_lt (Nat.lt_succ_of_lt (ih h))
  | case6 done c cs _ _ ih => exact Nat.lt_succ_of_lt (ih h)

/-- The token of a plain word. -/
def ofWord (word : List Char) : Token :=
  let word := String.ofList word
  if word = "where" then .operator .having
  else if word = "wherenot" then .operator .lacking
  else .name word

/-- The token of a number. -/
def ofDigits (negative : Bool) (digits : List Char) : Token :=
  if longestNumeral < digits.length then .longNumber digits.length
  else
    let n : Int := natOfDecimals digits
    .number (if negative then -n else n)

/-- The token that a single character is. -/
def ofMark (c : Char) : Token :=
  match c with
  | '.' => .operator .next
  | '|' => .operator .union
  | '&' => .operator .both
  | '$' => .root
  | '*' => .asterisk
  | ',' => .comma
  | ':' => .colon
  | '[' => .openBracket
  | ']' => .closeBracket
  | '(' => .openGroup
  | ')' => .closeGroup
  | _ => .wrong

/-- The token at the front of a text that begins with `c`, and the text after it. Behind a quote
that is not closed there is nothing. -/
def token (c : Char) (cs : List Char) : Token × List Char :=
  if c = '.' ∧ cs.head? = some '.' then (.operator .descent, cs.tail)
  else if c = '\'' ∨ c = '"' ∨ c = '\x60' then
    match unquote? c [] cs with
    | some (text, rest) =>
      let text := String.ofList text
      (if c = '\x60' then .quotedOperator text else .name text, rest)
    | none => (.wrong, [])
  else if isNameStart c then (ofWord (c :: cs.takeWhile isNameRest), cs.dropWhile isNameRest)
  else if isDecimalDigit c then
    (ofDigits false (c :: cs.takeWhile isDecimalDigit), cs.dropWhile isDecimalDigit)
  else if c = '-' ∧ cs.head?.any isDecimalDigit then
    (ofDigits true (cs.takeWhile isDecimalDigit), cs.dropWhile isDecimalDigit)
  else (ofMark c, cs)

theorem length_dropWhile_le (p : Char → Bool) (cs : List Char) :
    (cs.dropWhile p).length ≤ cs.length :=
  (List.dropWhile_suffix p).length_le

theorem length_token_le (c : Char) (cs : List Char) : (token c cs).2.length ≤ cs.length := by
  unfold token
  split
  · simp
  split
  · split
    · next h => exact Nat.le_of_lt (length_lt_of_unquote? h)
    · simp
  split
  · exact length_dropWhile_le _ _
  split
  · exact length_dropWhile_le _ _
  split
  · exact length_dropWhile_le _ _
  · exact Nat.le_refl _

/-- The words of a text. -/
def tokens : List Char → List Token
  | [] => []
  | c :: cs => if isBlank c then tokens cs else (token c cs).1 :: tokens (token c cs).2
termination_by cs => cs.length
decreasing_by
  · simp
  · have := length_token_le c cs
    simp only [List.length_cons]; omega

end JsonExpect.Selector
