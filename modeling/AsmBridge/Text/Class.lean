import AsmBridge.Text.Utf8
import AsmBridge.Text.WordTable
import AsmBridge.Text.PrintTable

/-!
# Classes of characters

Assembly source and Go declarations are read with Unicode in mind: blanks, word characters and
decimal digits are recognised in every script. ASCII is decided at once, the rest by the tables
of ranges.
-/

namespace AsmBridge.Text

/-- Some range of the table contains `n`. -/
def covers (table : List (Nat × Nat)) (n : Nat) : Bool :=
  table.any fun r => r.1 ≤ n && n ≤ r.2

/-- White space of any script, the four ASCII separators `0x1c` to `0x1f` included. -/
def isBlank (c : Char) : Bool :=
  let n := c.toNat
  (9 ≤ n && n ≤ 13) || (28 ≤ n && n ≤ 32) ||
    (127 < n && covers [(0x85, 0x85), (0xa0, 0xa0), (0x1680, 0x1680), (0x2000, 0x200a),
      (0x2028, 0x2029), (0x202f, 0x202f), (0x205f, 0x205f), (0x3000, 0x3000)] n)

/-- A letter, digit or underscore. -/
def isWord (c : Char) : Bool :=
  c.isAlphanum || c == '_' || (127 < c.toNat && covers wordRanges c.toNat)

/-- The value of a decimal digit of any script. -/
def digit? (c : Char) : Option Nat :=
  if c.isDigit then some (c.toNat - 48)
  else if c.toNat ≤ 127 then none
  else (digitZeros.find? fun z => z ≤ c.toNat && c.toNat < z + 10).map (c.toNat - ·)

/-- The value of an ASCII digit in a base up to 36, letters of either case counting from ten. -/
def digitIn? (base : Nat) (c : Char) : Option Nat :=
  let value :=
    if c.isDigit then c.toNat - 48
    else if c.isLower then c.toNat - 87
    else if c.isUpper then c.toNat - 55
    else base
  if value < base then some value else none

/-- A character that a quoted text shows as itself. -/
def isPrintable (c : Char) : Bool :=
  let n := c.toNat
  (32 ≤ n && n < 127) || (127 < n && covers printRanges n)

/-- A character that may begin a symbol: an ASCII letter, `_`, `.` or `$`. -/
def isSymbolStart (c : Char) : Bool :=
  c.isAlpha || c == '_' || c == '.' || c == '$'

/-- A character that may continue a symbol: a word character, `.`, `$` or `@`. -/
def isSymbolRest (c : Char) : Bool :=
  isWord c || c == '.' || c == '$' || c == '@'

/-- The lower case of an ASCII letter; the Kelvin sign is the one other letter whose lower case
is ASCII. -/
def lowerChar (c : Char) : Char :=
  if c == '\u212a' then 'k' else c.toLower

/-- Lower case by `lowerChar`. -/
def lower (s : String) : String :=
  String.ofList ((chars s).map lowerChar)

/-- Capital form of a letter as far as it is made of ASCII capitals: the ligatures of `f`, the
long `s` and the `t` with a diaeresis have one too. -/
def capitals (c : Char) : List Char :=
  match c with
  | '\u017f' => ['S']
  | '\ufb00' => ['F', 'F']
  | '\ufb01' => ['F', 'I']
  | '\ufb02' => ['F', 'L']
  | '\ufb03' => ['F', 'F', 'I']
  | '\ufb04' => ['F', 'F', 'L']
  | '\ufb05' => ['S', 'T']
  | '\ufb06' => ['S', 'T']
  | '\u1e97' => ['T', '\u0308']
  | c => [c.toUpper]

end AsmBridge.Text
