import AsmBridge.Encoding.Form

/-!
# Rows of the encoding table

Short names for operand types, opcodes and operand slots, so that the rows of the table read like
those of the manual: a row is `row [rm64, r64] (opW [0x89]).r [rmW, regR]`.
-/

namespace AsmBridge.Table

/-- One row. -/
def row (types : List OperandType) (opcode : OpcodeEntry) (slots : List Slot) : Form :=
  { types, opcode, slots }

def r8 : OperandType := .gp .w8
def r16 : OperandType := .gp .w16
def r32 : OperandType := .gp .w32
def r64 : OperandType := .gp .w64
def rm8 : OperandType := .gpOrMem .w8
def rm16 : OperandType := .gpOrMem .w16
def rm32 : OperandType := .gpOrMem .w32
def rm64 : OperandType := .gpOrMem .w64
def imm8 : OperandType := .imm .w8
def imm16 : OperandType := .imm .w16
def imm32 : OperandType := .imm .w32
def imm64 : OperandType := .imm .w64
def al : OperandType := .fixed (.gp .w8 0)
def ax : OperandType := .fixed (.gp .w16 0)
def eax : OperandType := .fixed (.gp .w32 0)
def rax : OperandType := .fixed (.gp .w64 0)
def cl : OperandType := .fixed (.gp .w8 1)
def anyMem : OperandType := .mem none
def mem (bits : Nat) : OperandType := .mem (some bits)
def xmm (n : Nat) : OperandType := .vector .xmm n
def ymm (n : Nat) : OperandType := .vector .ymm n
def xmmMem (n bits : Nat) : OperandType := .vectorOrMem .xmm n bits
def ymmMem (n bits : Nat) : OperandType := .vectorOrMem .ymm n bits

/-- An opcode of these bytes. -/
def op (bytes : List UInt8) : OpcodeEntry := { lead := .plain, bytes := bytes }

/-- An opcode of these bytes with the 64-bit operation size. -/
def opW (bytes : List UInt8) : OpcodeEntry := { lead := .rexW, bytes := bytes }

/-- A VEX opcode. -/
def vex (third : Option ThirdOperand) (length : VectorLength) (mandatory : Option Mandatory)
    (map : OpcodeMap) (w : VexW) (byte : UInt8) : OpcodeEntry :=
  { lead := .vex third length mandatory map w, bytes := [byte] }

end AsmBridge.Table

namespace AsmBridge.OpcodeEntry

/-- The entry with one more mark. -/
def mark (e : OpcodeEntry) (m : OpcodeMark) : OpcodeEntry := { e with marks := e.marks ++ [m] }

/-- ModR/M holds a register and an operand. -/
def r (e : OpcodeEntry) : OpcodeEntry := e.mark .modrm

/-- ModR/M holds opcode bits and an operand. -/
def ext (e : OpcodeEntry) (n : Fin 8) : OpcodeEntry := e.mark (.extension n)

def ib (e : OpcodeEntry) : OpcodeEntry := e.mark (.imm .w8)
def iw (e : OpcodeEntry) : OpcodeEntry := e.mark (.imm .w16)
def id (e : OpcodeEntry) : OpcodeEntry := e.mark (.imm .w32)
def io (e : OpcodeEntry) : OpcodeEntry := e.mark (.imm .w64)

/-- An immediate byte holds a register. -/
def is4 (e : OpcodeEntry) : OpcodeEntry := e.mark .register

def rb (e : OpcodeEntry) : OpcodeEntry := { e with plus := some .w8 }
def rw (e : OpcodeEntry) : OpcodeEntry := { e with plus := some .w16 }
def rd (e : OpcodeEntry) : OpcodeEntry := { e with plus := some .w32 }
def rq (e : OpcodeEntry) : OpcodeEntry := { e with plus := some .w64 }

end AsmBridge.OpcodeEntry

namespace AsmBridge.Table

def rmR : Slot := ⟨.rm, .read⟩
def rmW : Slot := ⟨.rm, .write⟩
def rmRW : Slot := ⟨.rm, .readWrite⟩
def regR : Slot := ⟨.reg, .read⟩
def regW : Slot := ⟨.reg, .write⟩
def regRW : Slot := ⟨.reg, .readWrite⟩
def opcodeR : Slot := ⟨.opcode, .read⟩
def opcodeW : Slot := ⟨.opcode, .write⟩
def opcodeRW : Slot := ⟨.opcode, .readWrite⟩
def vvvvR : Slot := ⟨.vvvv, .read⟩
def vvvvW : Slot := ⟨.vvvv, .write⟩
def immR : Slot := ⟨.imm, .read⟩
def is4R : Slot := ⟨.immRegister, .read⟩
def impliedR : Slot := ⟨.implied, .read⟩
def impliedRW : Slot := ⟨.implied, .readWrite⟩

/-- An instruction with its forms in order of preference. -/
structure Entry where
  mnemonic : String
  forms : List Form
deriving Repr

end AsmBridge.Table
