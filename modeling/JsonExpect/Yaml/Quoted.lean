import JsonExpect.Json.Quoted
import JsonExpect.Yaml.Fault
import JsonExpect.Yaml.Folded

/-!
# Quoted scalars

Between single quotes every character stands for itself, and the quote is written twice. Between
double quotes a backslash begins an escape. Both may go over several lines, which are folded; no
line in between may be a mark around documents.
-/

namespace JsonExpect.Yaml

/-- The escapes that are written by one character. -/
def escapes : List (Char × Char) :=
  [('0', '\x00'), ('a', '\x07'), ('b', '\x08'), ('t', '\t'), ('\t', '\t'), ('n', '\n'),
    ('v', '\x0b'), ('f', '\x0c'), ('r', '\r'), ('e', '\x1b'), (' ', ' '), ('"', '"'), ('\\', '\\'),
    ('/', '/'), ('N', '\x85'), ('_', '\xa0'), ('L', '\u2028'), ('P', '\u2029')]

/-- The number that hexadecimal digits write. -/
def hexNumber? (ds : List Char) : Option Nat :=
  ds.foldl (fun n? c => n?.bind fun n => (Json.hexValue? c).map fun d => 16 * n + d) (some 0)

/-- The character whose number hexadecimal digits write. A half of a surrogate pair stays one. -/
def numbered (ds : List Char) : Except Fault Char :=
  match hexNumber? ds with
  | none => .error .malformed
  | some n =>
    if n < 0x110000 then .ok (charOfCodePoint n) else .error (.noCharacter (0x80000000 ≤ n))

/-- A text between single quotes, read on from `f`, and the place behind it. -/
def singleQuoted (f : Folded) (p : Position) : List Char → Except Fault (List Char × Cursor)
  | [] => .error .malformed
  | c :: cs =>
    let q := p.after c
    if c = '\'' then
      match cs with
      | '\'' :: rest => singleQuoted (f.push '\'') (q.after '\'') rest
      | _ => .ok (f.fullText, ⟨cs, q⟩)
    else if isBreak c then
      if isMark cs then .error .malformed else singleQuoted (f.newline c) q cs
    else if c = ' ' ∨ c = '\t' then singleQuoted (f.blank c) q cs
    else singleQuoted (f.push c) q cs

/-- A text between double quotes, read on from `f`, and the place behind it. -/
def doubleQuoted (f : Folded) (p : Position) : List Char → Except Fault (List Char × Cursor)
  | [] => .error .malformed
  | '\\' :: 'x' :: a :: b :: rest => do
    let ds := [a, b]
    doubleQuoted (f.push (← numbered ds)) (ds.foldl .after ((p.after '\\').after 'x')) rest
  | '\\' :: 'u' :: a :: b :: c :: d :: rest => do
    let ds := [a, b, c, d]
    doubleQuoted (f.push (← numbered ds)) (ds.foldl .after ((p.after '\\').after 'u')) rest
  | '\\' :: 'U' :: a :: b :: c :: d :: e :: g :: h :: i :: rest => do
    let ds := [a, b, c, d, e, g, h, i]
    doubleQuoted (f.push (← numbered ds)) (ds.foldl .after ((p.after '\\').after 'U')) rest
  | '\\' :: e :: rest =>
    let q := (p.after '\\').after e
    if isBreak e then
      if isMark rest then .error .malformed else doubleQuoted f.join q rest
    else
      match escapes.find? (·.1 = e) with
      | some r => doubleQuoted (f.push r.2) q rest
      | none => .error .malformed
  | c :: cs =>
    let q := p.after c
    if c = '"' then .ok (f.fullText, ⟨cs, q⟩)
    else if isBreak c then
      if isMark cs then .error .malformed else doubleQuoted (f.newline c) q cs
    else if c = ' ' ∨ c = '\t' then doubleQuoted (f.blank c) q cs
    else doubleQuoted (f.push c) q cs

/-- The quoted scalar at a place, and the place behind it. -/
def quotedScalar (k : Cursor) : Except Fault (List Char × Cursor) :=
  match k.rest with
  | '\'' :: cs => singleQuoted {} (k.position.after '\'') cs
  | '"' :: cs => doubleQuoted {} (k.position.after '"') cs
  | _ => .error .malformed

end JsonExpect.Yaml
