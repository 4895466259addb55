import AsmBridge.Encoding.Opcode
import AsmBridge.Operand

/-!
# Forms of an instruction

A form is one row of the encoding table: the operand types it takes, its opcode, and for each
operand the place it has in the instruction word and whether the instruction reads or writes it.
-/

namespace AsmBridge

/-- The two kinds of vector register. -/
inductive VectorKind
  | xmm
  | ymm
deriving DecidableEq, Repr

def VectorKind.text : VectorKind → String
  | .xmm => "xmm"
  | .ymm => "ymm"

/-- What a form takes at one operand position. The numbers of vector operands only tell the
positions apart. -/
inductive OperandType
  /-- The number one. -/
  | one
  /-- One particular register. -/
  | fixed (r : Register)
  | gp (w : Width)
  /-- A general-purpose register or a datum of its width. -/
  | gpOrMem (w : Width)
  /-- A general-purpose register or a datum of another width. -/
  | gpOrNarrow (w : Width) (bits : Nat)
  | vector (k : VectorKind) (n : Nat)
  | vectorOrMem (k : VectorKind) (n : Nat) (bits : Nat)
  /-- A datum, of any width if none is given. -/
  | mem (bits : Option Nat)
  | imm (w : Width)
deriving DecidableEq, Repr

/-- The operand type in the notation of the manual. -/
def OperandType.text : OperandType → String
  | .one => "1"
  | .fixed r => r.name
  | .gp w => "r" ++ toString w.bits
  | .gpOrMem w => "r/m" ++ toString w.bits
  | .gpOrNarrow w n => "r" ++ toString w.bits ++ "/m" ++ toString n
  | .vector k n => k.text ++ toString n
  | .vectorOrMem k n bits => k.text ++ toString n ++ "/m" ++ toString bits
  | .mem none => "m"
  | .mem (some n) => "m" ++ toString n
  | .imm w => "imm" ++ toString w.bits

/-- Where an operand stands in the instruction word. -/
inductive Place
  /-- The low bits of the opcode. -/
  | opcode
  /-- The operand field of ModR/M, with what follows it. -/
  | rm
  /-- The register field of ModR/M. -/
  | reg
  /-- The register field of the VEX prefix. -/
  | vvvv
  /-- The high half of an immediate byte. -/
  | immRegister
  /-- An immediate of the width of the operand type. -/
  | imm
  /-- Nowhere: the opcode implies the operand. -/
  | implied
deriving DecidableEq, Repr

/-- Whether an instruction reads an operand, writes it, or both. -/
inductive Use
  | read
  | write
  | readWrite
deriving DecidableEq, Repr

def Use.reads : Use → Bool
  | .write => false
  | _ => true

def Use.writes : Use → Bool
  | .read => false
  | _ => true

/-- The place and the use of one operand. -/
structure Slot where
  place : Place
  use : Use
deriving DecidableEq, Repr

/-- One row of the encoding table. -/
structure Form where
  types : List OperandType
  opcode : OpcodeEntry
  slots : List Slot
  /-- Operands that the form does not take although they match its types, because their code is
  that of another instruction. -/
  barred : Option (List Operand) := none
deriving DecidableEq, Repr

end AsmBridge
