import AsmBridge.Defect
import AsmBridge.Encoding.Error
import AsmBridge.Binary.Word

/-!
# Ways to fail

Besides defects, which are reported with their place, an operation can stop: its input is outside
of what it provides for, and it ends without a report. A stop ends the whole unit, while a defect
of one function leaves the others to be examined.
-/

namespace AsmBridge

/-- Why an operation ends without a diagnostic. -/
inductive Stop
  /-- A number in an operand, an alignment, a section name or an array type cannot be read. -/
  | numberUnreadable
  /-- A directive consists of a bare point. -/
  | directiveNameless
  /-- The stack pointer is masked with a symbol. -/
  | maskSymbolic
  /-- An alignment directive has no argument. -/
  | alignmentMissing
  /-- An alignment is given as a negative power of two. -/
  | alignmentNegative
  /-- An alignment is given as a power of two with too many digits. -/
  | alignmentTooLarge
  /-- A hexadecimal escape in a string has no digits. -/
  | escapeEmpty
  /-- A number is too large for its floating-point format. -/
  | floatTooLarge
  /-- A directive or the constant pool has more bytes than can be counted. -/
  | countTooLarge
  /-- No accumulator has the width of the operand. -/
  | accumulatorMissing
  /-- An operand whose register is asked for is none. -/
  | registerExpected
  /-- A symbol has no slot in the constant pool. -/
  | slotMissing (symbol : Option String)
  /-- An operand of a width without a word is to be shown. -/
  | widthUnnamed
  /-- The layout of the constant pool is fixed. -/
  | poolFixed
  /-- Spilled arguments without a frame to hold them. -/
  | spillsUnframed
  /-- A register without a name in the target dialect. -/
  | unnamedRegister (r : Register)
  /-- A result that fits neither a register nor a vector. -/
  | resultShapeless
  /-- An item of a body that has no line; `shown` is its listing. -/
  | unrenderable (shown : String)
  /-- A text that should be a string literal. -/
  | stringExpected (text : String)
  /-- A directive that emits no data. -/
  | dataExpected (name : String)
  /-- A string literal ends in the middle of an escape. -/
  | escapeUnfinished
  /-- A character of a string literal does not fit a byte. -/
  | characterTooWide
  /-- A directive lacks an argument. -/
  | argumentMissing
  /-- A parameter list without types at its end. -/
  | parametersUntyped (names : List String)
  | scaleInvalid (factor : Int)
  /-- A number has too many digits to be written. -/
  | numberUnwritable
  /-- The bytes of a directive or of the constant pool leave no room behind them. -/
  | outOfMemory
  /-- A frame is aligned to no bytes at all. -/
  | alignmentZero
  /-- The number of jobs is left open. -/
  | jobsUnknown
deriving DecidableEq, Repr

/-- The wording of a stop, for those that have one. -/
def Stop.message? : Stop → Option String
  | .poolFixed => some "Constant pool layout is already fixed."
  | .spillsUnframed => some "Spilled arguments require a frame."
  | .unnamedRegister r => some ("Register " ++ r.name ++ " has no Plan9 name.")
  | .unrenderable shown => some ("Cannot render " ++ shown)
  | .stringExpected text => some ("Expected string literal, got " ++ text)
  | .dataExpected name => some ("Not a data directive: " ++ name)
  | .parametersUntyped names => some (Defect.untypedText names)
  | .scaleInvalid factor =>
    if Text.isWritable factor then some (Defect.scaleText factor) else none
  | _ => none

/-- So many bytes, none if the number is negative. The number must be a signed one of 64 bits, and
one byte more is kept behind the last. -/
def roomFor (n : Int) : Except Stop Nat :=
  if !fitsSigned 64 n then .error .countTooLarge
  else if !fitsSigned 64 (n + 1) then .error .outOfMemory
  else .ok n.toNat

/-- How an operation on a unit fails. -/
inductive Fault
  | defect (d : Diagnostic)
  | stop (s : Stop)
  | encoding (e : EncodeError)
deriving DecidableEq, Repr

end AsmBridge
