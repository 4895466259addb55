import AsmBridge.Binary.Word
import AsmBridge.Text.Decimal

/-!
# Binary floating-point formats

A decimal number is rounded to the nearest value of a binary format, a tie going to the value
with an even significand. The computation is exact: the number is a quotient of naturals, and the
one rounding step is a division. The narrow format is reached through the wide one, so a number
is rounded twice on its way to it.
-/

namespace AsmBridge

-- Powers of natural numbers are those of the core library.
attribute [local instance (high)] instPowNat

/-- A binary interchange format by the widths of its two fields. -/
structure FloatFormat where
  fractionBits : Nat
  exponentBits : Nat
deriving DecidableEq, Repr

namespace FloatFormat

/-- The format of 64 bits. -/
def double : FloatFormat := ⟨52, 11⟩

/-- The format of 32 bits. -/
def single : FloatFormat := ⟨23, 8⟩

/-- Width in bytes. -/
def bytes (f : FloatFormat) : Nat := (1 + f.exponentBits + f.fractionBits) / 8

/-- The bits of positive infinity: all ones in the exponent. -/
def infinity (f : FloatFormat) : Nat := (2 ^ f.exponentBits - 1) * 2 ^ f.fractionBits

/-- The bits of the quiet "not a number". -/
def quietNaN (f : FloatFormat) : Nat := f.infinity + 2 ^ (f.fractionBits - 1)

/-- The bits that a minus sign adds. -/
def signBit (f : FloatFormat) (negative : Bool) : Nat :=
  if negative then 2 ^ (f.exponentBits + f.fractionBits) else 0

/-- The exponent of two of the last place of the smallest normal numbers and of all subnormal
ones. -/
def lowestPlace (f : FloatFormat) : Int :=
  2 - (2 ^ (f.exponentBits - 1) : Nat) - f.fractionBits

/-- The quotient rounded to the nearest natural number, a tie to the even one. -/
def roundQuotient (num den : Nat) : Nat :=
  let q := num / den
  let r := num % den
  if den < 2 * r || (2 * r == den && q % 2 == 1) then q + 1 else q

/-- The largest `e` with `2 ^ e * den ≤ num`, for positive operands. -/
def floorLog (num den : Nat) : Int :=
  let guess : Int := (num.log2 : Int) - den.log2
  let reached := if guess < 0 then den ≤ num * 2 ^ guess.natAbs else den * 2 ^ guess.natAbs ≤ num
  if reached then guess else guess - 1

/-- The bits of the value nearest to `num / den`; what is too large rounds to infinity. -/
def nearest (f : FloatFormat) (num den : Nat) : Nat :=
  if num = 0 then 0
  else
    let place := max (floorLog num den - f.fractionBits) f.lowestPlace
    let significand :=
      if place < 0 then roundQuotient (num * 2 ^ place.natAbs) den
      else roundQuotient num (den * 2 ^ place.natAbs)
    min ((place - f.lowestPlace).toNat * 2 ^ f.fractionBits + significand) f.infinity

/-- `nearest` for `digits · 10 ^ exponent`. Exponents far outside the range of the format are
settled without computing the power. -/
def nearestDecimal (f : FloatFormat) (digits : Nat) (exponent : Int) : Nat :=
  let size : Int := exponent + (digits.log2 + 1) / 3 + 1
  if digits = 0 then 0
  else if exponent > 400 then f.infinity
  else if size < -400 then 0
  else if exponent < 0 then nearest f digits (10 ^ exponent.natAbs)
  else nearest f (digits * 10 ^ exponent.natAbs) 1

/-- The bits of a decimal number. -/
def ofDecimal (f : FloatFormat) : Text.Decimal → Nat
  | .finite negative digits exponent => f.signBit negative + f.nearestDecimal digits exponent
  | .infinite negative => f.signBit negative + f.infinity
  | .notANumber negative => f.signBit negative + f.quietNaN

/-- The bits of `target` for a value given by its bits of `source`; `none` if the value is finite and
rounds to infinity. -/
def convert? (source target : FloatFormat) (bits : Nat) : Option Nat :=
  let half := 2 ^ (source.exponentBits + source.fractionBits)
  let negative := half ≤ bits
  let rest := bits % half
  if source.infinity < rest then some (target.signBit negative + target.quietNaN)
  else if rest = source.infinity then some (target.signBit negative + target.infinity)
  else
    let field := rest / 2 ^ source.fractionBits
    let fraction := rest % 2 ^ source.fractionBits
    let significand := if field = 0 then fraction else fraction + 2 ^ source.fractionBits
    let place : Int := source.lowestPlace + (if field = 0 then 0 else (field - 1 : Nat))
    let out :=
      if place < 0 then target.nearest significand (2 ^ place.natAbs)
      else target.nearest (significand * 2 ^ place.natAbs) 1
    if out = target.infinity then none else some (target.signBit negative + out)

end FloatFormat

end AsmBridge
