import AsmBridge.Text.Class

/-!
# Quoted text

The form in which a diagnostic shows a text it could not read: between single quotes, or double
ones when only the single quote occurs in it, with the characters that do not print given by
their code.
-/

namespace AsmBridge.Text

/-- Lower-case hexadecimal digits of `n`, at least `width` of them. -/
def hexDigits (width n : Nat) : List Char :=
  let ds := Nat.toDigits 16 n
  List.replicate (width - ds.length) '0' ++ ds

/-- Lower-case hexadecimal with at least `width` digits. -/
def hex (width n : Nat) : String := String.ofList (hexDigits width n)

/-- Hexadecimal digits of the magnitude behind the sign of a negative number. -/
def hexInt (v : Int) : String :=
  if v < 0 then "-" ++ hex 1 v.natAbs else hex 1 v.natAbs

/-- The code of a character as an escape of two, four or eight digits. -/
def escapeCode (c : Char) : List Char :=
  let n := c.toNat
  if n ≤ 0xff then '\\' :: 'x' :: hexDigits 2 n
  else if n ≤ 0xffff then '\\' :: 'u' :: hexDigits 4 n
  else '\\' :: 'U' :: hexDigits 8 n

/-- One character as it stands between the quotes `mark`. -/
def quoteChar (mark c : Char) : List Char :=
  if c == mark || c == '\\' then ['\\', c]
  else if c == '\n' then ['\\', 'n']
  else if c == '\r' then ['\\', 'r']
  else if c == '\t' then ['\\', 't']
  else if isPrintable c then [c]
  else escapeCode c

/-- The mark that encloses a text: double only if it holds a single quote and no double one. -/
def quoteMark (s : List Char) : Char :=
  if s.contains '\'' && !s.contains '"' then '"' else '\''

/-- The text between quotes. -/
def quoteChars (s : List Char) : List Char :=
  let mark := quoteMark s
  mark :: s.flatMap (quoteChar mark) ++ [mark]

/-- The text between quotes. -/
def quote (s : String) : String := String.ofList (quoteChars s.toList)

end AsmBridge.Text
