import AsmBridge.Text.Numeral

/-!
# Decimal fractions

A decimal fraction is a signed row of digits with at most one point and an optional power of ten,
or one of the words for infinity and "not a number" in any case. It is read exactly; rounding to a
binary format is a later step.
-/

namespace AsmBridge.Text

/-- A number as a decimal text gives it. -/
inductive Decimal
  /-- `digits · 10 ^ exponent`, negated if `negative`. -/
  | finite (negative : Bool) (digits : Nat) (exponent : Int)
  | infinite (negative : Bool)
  | notANumber (negative : Bool)
deriving DecidableEq, Repr

/-- The text without its underscores, each of which must stand between two digits; `before` says
whether a digit was read last. -/
def ungroup : Bool → List Char → Option (List Char)
  | _, [] => some []
  | before, '_' :: rest =>
    match rest with
    | c :: _ => if before && c.isDigit then ungroup false rest else none
    | [] => none
  | _, c :: rest => (ungroup c.isDigit rest).map (c :: ·)

/-- The value of a run of ASCII digits. -/
def decimalValue (ds : List Char) : Nat :=
  ds.foldl (fun n c => 10 * n + (c.toNat - 48)) 0

/-- The power of ten behind an `e`. -/
def powerOfTen? : List Char → Option Int
  | [] => some 0
  | e :: rest =>
    if e == 'e' || e == 'E' then
      match rest with
      | '-' :: ds => if someAll Char.isDigit ds then some (-(decimalValue ds : Int)) else none
      | '+' :: ds => if someAll Char.isDigit ds then some (decimalValue ds : Int) else none
      | ds => if someAll Char.isDigit ds then some (decimalValue ds : Int) else none
    else none

/-- An unsigned decimal fraction. -/
def unsignedDecimal? (negative : Bool) (s : List Char) : Option Decimal :=
  let whole := s.takeWhile Char.isDigit
  let rest := s.dropWhile Char.isDigit
  let (part, tail) :=
    match rest with
    | '.' :: more => (more.takeWhile Char.isDigit, more.dropWhile Char.isDigit)
    | _ => ([], rest)
  if whole.isEmpty && part.isEmpty then none
  else (powerOfTen? tail).map fun e =>
    .finite negative (decimalValue (whole ++ part)) (e - part.length)

/-- The number without its sign: a word or a fraction. -/
def decimalBody? (negative : Bool) (s : List Char) : Option Decimal :=
  let word := String.ofList (s.map Char.toLower)
  if word == "inf" || word == "infinity" then some (.infinite negative)
  else if word == "nan" then some (.notANumber negative)
  else unsignedDecimal? negative s

/-- The number that a decimal text denotes. -/
def decimal? (s : List Char) : Option Decimal := do
  match ← ungroup false ((trimNumber s).map asciiDigit) with
  | '-' :: rest => decimalBody? true rest
  | '+' :: rest => decimalBody? false rest
  | rest => decimalBody? false rest

end AsmBridge.Text
