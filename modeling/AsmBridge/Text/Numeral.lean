import AsmBridge.Text.Scan

/-!
# Integer literals

An integer literal may be signed and surrounded by blanks, names its base by `0x`, `0o` or `0b`,
and may group its digits with single underscores. Read with the base left open a decimal literal
other than zero does not begin with `0`; read as octal the `0o` may be left out; read as decimal it
is nothing but digits.

Decimal numbers are neither read nor written beyond a number of digits, since the work grows with
its square; other bases know no limit.
-/

namespace AsmBridge.Text

-- Powers of natural numbers are those of the core library.
attribute [local instance (high)] instPowNat

/-- The most digits of a decimal number that is read or written. -/
def digitLimit : Nat := 4300

/-- The number has few enough digits to be written in decimal. -/
def isWritable (v : Int) : Bool := v.natAbs < 10 ^ digitLimit

/-- Why a text is no integer. -/
inductive NumeralError
  | malformed
  /-- It begins with more decimal digits than are read. -/
  | tooLong (digits : Nat)
deriving DecidableEq, Repr

/-- The wording of the limit. -/
def limitText : String :=
  "Exceeds the limit (" ++ toString digitLimit ++ " digits) for integer string conversion"

/-- The advice that follows the limit. -/
def limitAdvice : String := "; use sys.set_int_max_str_digits() to increase the limit"

/-- The wording for a number that has too many digits to be read. -/
def tooLongText (digits : Nat) : String :=
  limitText ++ ": value has " ++ toString digits ++ " digits" ++ limitAdvice

/-- The wording for a number that has too many digits to be written. -/
def unwritableText : String := limitText ++ limitAdvice

/-- How the base of a literal is found. -/
inductive Radix
  /-- By the mark at its front, decimal without one. -/
  | marked
  | octal
  | decimal
deriving DecidableEq, Repr

/-- Blanks around a number: ASCII white space and the blanks of other scripts, but not the ASCII
separators. -/
def isNumberBlank (c : Char) : Bool :=
  isBlank c && !(28 ≤ c.toNat && c.toNat ≤ 31)

/-- The text without number blanks at either end. -/
def trimNumber (s : List Char) : List Char :=
  ((s.dropWhile isNumberBlank).reverse.dropWhile isNumberBlank).reverse

/-- Decimal digits of other scripts as ASCII digits. -/
def asciiDigit (c : Char) : Char :=
  match digit? c with
  | some d => Char.ofNat (48 + d)
  | none => c

/-- The value of digits in which single underscores may stand between two digits; `acc` is the
value read so far. -/
def groupedDigits (base : Nat) : Nat → List Char → Option Nat
  | acc, [] => some acc
  | acc, '_' :: c :: rest => do
    let d ← digitIn? base c
    groupedDigits base (acc * base + d) rest
  | acc, c :: rest => do
    let d ← digitIn? base c
    groupedDigits base (acc * base + d) rest

/-- The value of a non-empty group of digits. -/
def digits? (base : Nat) : List Char → Option Nat
  | [] => none
  | '_' :: _ => none
  | s => groupedDigits base 0 s

/-- `digits?` after a base mark, which one underscore may follow. -/
def markedDigits? (base : Nat) : List Char → Option Nat
  | '_' :: rest => digits? base rest
  | s => digits? base s

/-- The value of a row of decimal digits of any script. -/
def plainDecimal (ds : List Char) : Except NumeralError Nat :=
  if digitLimit < ds.length then .error (.tooLong ds.length)
  else .ok (ds.foldl (fun n c => 10 * n + (digit? c).getD 0) 0)

/-- The value of a decimal group of digits. Its length is judged before what follows the digits
is. -/
def decimalDigits (s : List Char) : Except NumeralError Nat :=
  let run := s.takeWhile fun c => c.isDigit || c == '_'
  let count := run.countP (·.isDigit)
  if digitLimit < count && (digits? 10 run).isSome then .error (.tooLong count)
  else
    match digits? 10 s with
    | some n => .ok n
    | none => .error .malformed

/-- The value of an unsigned literal. -/
def magnitude (radix : Radix) (s : List Char) : Except NumeralError Nat :=
  let based : Option Nat → Except NumeralError Nat
    | some n => .ok n
    | none => .error .malformed
  match radix, s with
  | .decimal, s => decimalDigits s
  | .marked, '0' :: 'x' :: rest => based (markedDigits? 16 rest)
  | .marked, '0' :: 'X' :: rest => based (markedDigits? 16 rest)
  | .marked, '0' :: 'b' :: rest => based (markedDigits? 2 rest)
  | .marked, '0' :: 'B' :: rest => based (markedDigits? 2 rest)
  | _, '0' :: 'o' :: rest => based (markedDigits? 8 rest)
  | _, '0' :: 'O' :: rest => based (markedDigits? 8 rest)
  | .marked, '0' :: rest => do
    let n ← decimalDigits ('0' :: rest)
    if n = 0 then return 0 else throw .malformed
  | .marked, s => decimalDigits s
  | .octal, s => based (digits? 8 s)

/-- The value of an integer literal. -/
def integer (radix : Radix) (s : List Char) : Except NumeralError Int :=
  match (trimNumber s).map asciiDigit with
  | '-' :: rest => (magnitude radix rest).map fun n => -(n : Int)
  | '+' :: rest => (magnitude radix rest).map fun n => (n : Int)
  | rest => (magnitude radix rest).map fun n => (n : Int)

/-- The value of an integer literal, if it is one and not too long. -/
def integer? (radix : Radix) (s : List Char) : Option Int := (integer radix s).toOption

end AsmBridge.Text
