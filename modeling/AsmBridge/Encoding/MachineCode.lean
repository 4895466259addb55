import AsmBridge.Encoding.AddressCode
import AsmBridge.Encoding.Select

/-!
# Machine code

The machine code of an instruction by its fields, and its composition from a form and operands.
The order of the fields in memory is fixed by `MachineCode.bytes`: mark, operand-size override,
mandatory prefix and extension byte or else a VEX prefix, opcode, ModR/M, SIB, displacement,
immediate.
-/

namespace AsmBridge

-- Powers of natural numbers are those of the core library.
attribute [local instance (high)] instPowNat

/-- The words that may precede a mnemonic in the source, with their bytes. -/
def sourceMarks : List (String × UInt8) :=
  [("lock", 0xf0), ("rep", 0xf3), ("repe", 0xf3), ("repz", 0xf3), ("repne", 0xf2), ("repnz", 0xf2)]

/-- The byte of a source mark. -/
def sourceMark? (s : String) : Option UInt8 :=
  (sourceMarks.find? fun p => p.1 == s).map (·.2)

/-- An extension byte: the 64-bit operation size and the fourth bits of register numbers. -/
structure Rex where
  w : Bool
  ext : Extension
deriving DecidableEq, Repr

def Rex.byte (x : Rex) : UInt8 := UInt8.ofNat (0x40 + 8 * x.w.toNat + x.ext.low)

/-- A VEX prefix by its fields, as its bits mean and not as they are stored. -/
structure Vex where
  spec : VexSpec
  ext : Extension
  /-- The number of the third register, zero if there is none. -/
  v : Nat
deriving DecidableEq, Repr

namespace Vex

/-- The prefix can be written in two bytes. -/
def isShort (p : Vex) : Bool := !p.ext.x && !p.ext.b && p.spec.m == 1 && p.spec.w == 0

/-- A bit that is stored inverted. -/
def inverted (place : Nat) (b : Bool) : Nat := if b then 0 else 2 ^ place

/-- The values of the bytes of the prefix, the short form wherever it will do. -/
def values (p : Vex) : List Nat :=
  let v := (15 - p.v % 16) <<< 3
  if p.isShort then
    [0xc5, inverted 7 p.ext.r ||| v ||| p.spec.l <<< 2 ||| p.spec.pp]
  else
    [0xc4, inverted 7 p.ext.r ||| inverted 6 p.ext.x ||| inverted 5 p.ext.b ||| p.spec.m,
      p.spec.w <<< 7 ||| v ||| p.spec.l <<< 2 ||| p.spec.pp]

/-- The prefix as bytes. -/
def bytes (p : Vex) : List UInt8 := p.values.map UInt8.ofNat

/-- The prefix as bytes, if every field keeps to its byte. -/
def bytes? (p : Vex) : Option (List UInt8) :=
  if p.values.all (· < 256) then some p.bytes else none

end Vex

/-- What stands before the opcode besides mark and override. -/
inductive CodeLead
  | legacy (mandatory : Option UInt8) (rex : Option Rex)
  | vex (p : Vex)
deriving DecidableEq, Repr

def CodeLead.bytes : CodeLead → List UInt8
  | .legacy mandatory rex => mandatory.toList ++ (rex.map (·.byte)).toList
  | .vex p => p.bytes

/-- The machine code of an instruction. -/
structure MachineCode where
  mark : Option UInt8
  /-- The operand-size override stands before the opcode. -/
  sizeOverride : Bool
  lead : CodeLead
  opcode : List UInt8
  address : Option AddressCode
  imm : List UInt8
deriving DecidableEq, Repr

/-- The code as it lies in memory. -/
def MachineCode.bytes (c : MachineCode) : List UInt8 :=
  c.mark.toList ++ (if c.sizeOverride then [0x66] else []) ++ c.lead.bytes ++ c.opcode ++
    (c.address.map (·.bytes)).getD [] ++ c.imm

/-- The operands of an instruction by their places. -/
structure Placed where
  opcode : Option Register := none
  reg : Option Register := none
  rm : Option Operand := none
  vvvv : Option Register := none
  imm : List UInt8 := []
  /-- Some register in a place exists only beside an extension byte. -/
  needsRex : Bool := false
deriving DecidableEq, Repr

namespace Placed

/-- The operand is a register that exists only beside an extension byte. -/
def needs : Operand → Bool
  | .reg r => r.needsExtension
  | _ => false

/-- The register an operand is, if it is one. -/
def register? : Operand → Option Register
  | .reg r => some r
  | _ => none

/-- The immediate bytes of an operand in a field of the given type. -/
def immBytes (t : OperandType) (o : Operand) : List UInt8 :=
  match t, o with
  | .imm w, .imm v => littleEndian w.bytes (wrapped w.bits v)
  | _, _ => []

/-- The places after one more operand. -/
def put (p : Placed) (t : OperandType) (s : Slot) (o : Operand) : Placed :=
  match s.place with
  | .implied => p
  | .opcode => { p with opcode := register? o, needsRex := p.needsRex || needs o }
  | .reg => { p with reg := register? o, needsRex := p.needsRex || needs o }
  | .rm => { p with rm := some o, needsRex := p.needsRex || needs o }
  | .vvvv => { p with vvvv := register? o, needsRex := p.needsRex || needs o }
  | .immRegister =>
    { p with
      imm := p.imm ++ [UInt8.ofNat (16 * ((register? o).map (·.number)).getD 0)]
      needsRex := p.needsRex || needs o }
  | .imm => { p with imm := p.imm ++ immBytes t o }

/-- The places of all operands in a form. -/
def ofForm (f : Form) (ops : List Operand) : Placed :=
  (f.types.zip (f.slots.zip ops)).foldl (fun p q => p.put q.1 q.2.1 q.2.2) {}

end Placed

/-- The opcode bytes with the low bits of a register added to the last. -/
def withRegister (bytes : List UInt8) : Option Register → List UInt8
  | none => bytes
  | some r =>
    match bytes.getLast? with
    | some b => bytes.dropLast ++ [b ||| UInt8.ofNat r.low.val]
    | none => bytes

/-- The register field of ModR/M: a register, or the opcode bits of the form, but not both. -/
def regField (reg : Option Register) (extension : Option Nat) : Except EncodeError RegField :=
  match reg, extension with
  | some _, some _ => .error .registerAndExtension
  | some r, none => .ok (.register r)
  | none, some n => .ok (.extension (Fin.ofNat 8 n))
  | none, none => .ok (.extension 0)

/-- The byte of the source mark, if there is one. -/
def markByte : Option String → Except EncodeError (Option UInt8)
  | none => .ok none
  | some s =>
    match sourceMark? s with
    | some b => .ok (some b)
    | none => .error (.unknownMark s)

/-- The first operand register that satisfies `p`. -/
def findRegister? (p : Register → Bool) (ops : List Operand) : Option Register :=
  ops.findSome? fun
    | .reg r => if p r then some r else none
    | _ => none

/-- The operand-size override is due: a form without VEX and mandatory prefix, with operands of 16
bits. -/
def overrides (spec : OpcodeSpec) (ops : List Operand) : Bool :=
  spec.vex.isNone && spec.mandatory.isNone && operationBits? ops == some 16

/-- What stands before the opcode, given the fourth bits of the registers. -/
def codeLead (spec : OpcodeSpec) (placed : Placed) (ext : Extension) (ops : List Operand) :
    Except EncodeError CodeLead :=
  match spec.vex with
  | some vex =>
    match findRegister? (·.needsExtension) ops with
    | some r => .error (.extensionWithVex r)
    | none => .ok (.vex ⟨vex, ext, (placed.vvvv.map (·.number)).getD 0⟩)
  | none =>
    if spec.rexW || ext.any || placed.needsRex then
      match findRegister? (·.isHighByte) ops with
      | some r => .error (.highByteWithExtension r)
      | none => .ok (.legacy spec.mandatory (some ⟨spec.rexW, ext⟩))
    else .ok (.legacy spec.mandatory none)

/-- The machine code of operands in a form that they suit. -/
def Form.assemble (f : Form) (mark : Option String) (ops : List Operand) :
    Except EncodeError MachineCode := do
  let spec := f.opcode.spec
  let placed := Placed.ofForm f ops
  let field ← regField placed.reg spec.extension
  let address ← placed.rm.mapM (AddressCode.ofOperand field)
  let mark ← markByte mark
  let opcodeExt : Extension := { b := (placed.opcode.map (·.extended)).getD false }
  let ext := opcodeExt.join ((address.map (·.ext)).getD {})
  let lead ← codeLead spec placed ext ops
  return {
    mark := mark
    sizeOverride := overrides spec ops
    lead := lead
    opcode := withRegister spec.opcode placed.opcode
    address := address
    imm := placed.imm }

end AsmBridge
