import AsmBridge.Encoding.Error
import AsmBridge.Binary.Word

/-!
# ModR/M, SIB and displacement

The operand field of an instruction word names a register directly or an address: by one byte, a
second one when the address is indexed or based on the stack pointer, and a displacement in the
shortest field that the base allows. The fourth bits of the register numbers go to the extension
bits outside of it.
-/

namespace AsmBridge

/-- The fourth bits of the register numbers in ModR/M and SIB. -/
structure Extension where
  /-- Of the register field. -/
  r : Bool := false
  /-- Of the index. -/
  x : Bool := false
  /-- Of the operand field, the base, or the register in the opcode. -/
  b : Bool := false
deriving DecidableEq, Repr, Inhabited

namespace Extension

/-- The bits of two parts of an instruction together. -/
def join (p q : Extension) : Extension := ⟨p.r || q.r, p.x || q.x, p.b || q.b⟩

/-- The bits in the low half of an extension byte. -/
def low (e : Extension) : Nat := 4 * e.r.toNat + 2 * e.x.toNat + e.b.toNat

/-- Some bit is set. -/
def any (e : Extension) : Bool := e.r || e.x || e.b

/-- The extension byte these bits ask for, zero if they ask for none. -/
def byteOrZero (e : Extension) : Nat := if e.any then 0x40 + e.low else 0

end Extension

/-- The ModR/M byte by its fields. -/
structure ModRM where
  mode : Fin 4
  reg : Fin 8
  rm : Fin 8
deriving DecidableEq, Repr, Inhabited

def ModRM.byte (m : ModRM) : UInt8 := UInt8.ofNat (64 * m.mode.val + 8 * m.reg.val + m.rm.val)

/-- The SIB byte by its fields. -/
structure Sib where
  scale : Fin 4
  index : Fin 8
  base : Fin 8
deriving DecidableEq, Repr, Inhabited

def Sib.byte (s : Sib) : UInt8 := UInt8.ofNat (64 * s.scale.val + 8 * s.index.val + s.base.val)

/-- An operand in an instruction word. -/
structure AddressCode where
  ext : Extension
  modrm : ModRM
  sib : Option Sib := none
  disp : List UInt8 := []
deriving DecidableEq, Repr, Inhabited

/-- The bytes of ModR/M and what follows it. -/
def AddressCode.bytes (c : AddressCode) : List UInt8 :=
  [c.modrm.byte] ++ (c.sib.map (·.byte)).toList ++ c.disp

/-- What stands in the register field of ModR/M. -/
inductive RegField
  | register (r : Register)
  /-- Three bits of opcode. -/
  | extension (n : Fin 8)
deriving DecidableEq, Repr

namespace RegField

/-- The three bits in the field. -/
def low : RegField → Fin 8
  | .register r => r.low
  | .extension n => n

/-- The fourth bit. -/
def extended : RegField → Bool
  | .register r => r.extended
  | .extension _ => false

end RegField

/-- The mode of ModR/M for an operand that is a register. -/
def ModRM.direct : Fin 4 := 3

/-- The value of the operand field that announces a SIB byte. -/
def ModRM.sibFollows : Fin 8 := 4

/-- The value of the operand field, and of the base in SIB, that stands for a bare displacement of
four bytes in mode zero. -/
def ModRM.dispOnly : Fin 8 := 5

/-- The value of the index in SIB that stands for none. -/
def Sib.noIndex : Fin 8 := 4

/-- A displacement of four bytes. -/
def disp32 (d : Int) : Option (List UInt8) :=
  if fitsSigned 32 d then some (littleEndian 4 (wrapped 32 d)) else none

/-- The mode of ModR/M and the displacement behind a base with the given low bits: no field for a
zero unless the bits are those of a bare displacement, one byte where it fits, else four. -/
def dispField (baseLow : Fin 8) (d : Int) : Except EncodeError (Fin 4 × List UInt8) :=
  if d = 0 ∧ baseLow ≠ ModRM.dispOnly then .ok (0, [])
  else if fitsSigned 8 d then .ok (1, littleEndian 1 (wrapped 8 d))
  else
    match disp32 d with
    | some bytes => .ok (2, bytes)
    | none => .error (.displacementTooLarge d)

/-- The index as it stands in SIB. -/
def Sib.indexField (index : Option Register) : Fin 8 :=
  (index.map (·.low)).getD Sib.noIndex

/-- The scale as it stands in SIB. -/
def Sib.scaleField (scale : Option Scale) : Fin 4 := (scale.map (·.code)).getD 0

/-- The first register of an address that cannot take part in one. -/
def Address.wrongRegister? (a : Address) : Option Register :=
  a.registers.find? fun r => !r.isAddressing

namespace AddressCode

/-- An address relative to the instruction pointer. -/
def ofRip (field : RegField) (a : Address) : Except EncodeError AddressCode :=
  if a.index.isSome then .error .ripIndexed
  else
    match disp32 a.disp with
    | some bytes =>
      .ok { ext := { r := field.extended }, modrm := ⟨0, field.low, ModRM.dispOnly⟩, disp := bytes }
    | none => .error .ripDisplacement

/-- An address without a base: through SIB, always with four bytes of displacement. -/
def ofBaseless (field : RegField) (a : Address) : Except EncodeError AddressCode :=
  match disp32 a.disp with
  | some bytes =>
    .ok
      { ext := { r := field.extended, x := (a.index.map (·.extended)).getD false }
        modrm := ⟨0, field.low, ModRM.sibFollows⟩
        sib := some ⟨Sib.scaleField a.scale, Sib.indexField a.index, ModRM.dispOnly⟩
        disp := bytes }
  | none => .error (.displacementTooLarge a.disp)

/-- An address with a base: through SIB if it is indexed or the low bits of the base announce
one. -/
def ofBased (field : RegField) (base : Register) (a : Address) :
    Except EncodeError AddressCode := do
  let (mode, disp) ← dispField base.low a.disp
  if a.index.isNone && base.low != ModRM.sibFollows then
    return { ext := { r := field.extended, b := base.extended }
             modrm := ⟨mode, field.low, base.low⟩
             disp := disp }
  else
    return { ext := { r := field.extended, x := (a.index.map (·.extended)).getD false,
                      b := base.extended }
             modrm := ⟨mode, field.low, ModRM.sibFollows⟩
             sib := some ⟨Sib.scaleField a.scale, Sib.indexField a.index, base.low⟩
             disp := disp }

/-- The address beside the given register field. -/
def ofAddress (field : RegField) (a : Address) : Except EncodeError AddressCode :=
  match a.symbol with
  | some name => .error (.unresolvedSymbol name)
  | none =>
    match a.wrongRegister? with
    | some r => .error (.notAddressing r)
    | none =>
      if a.ripRelative then ofRip field a
      else if a.index = some .rsp then .error (.stackIndex .rsp)
      else
        match a.base with
        | none => ofBaseless field a
        | some base => ofBased field base a

/-- The operand beside the given register field. -/
def ofOperand (field : RegField) : Operand → Except EncodeError AddressCode
  | .reg .rip => .error .ripDirect
  | .reg r =>
    .ok { ext := { r := field.extended, b := r.extended }
          modrm := ⟨ModRM.direct, field.low, r.low⟩ }
  | .mem a => ofAddress field a
  | .imm _ => .error (.notAddressable "Immediate")
  | .sym _ => .error (.notAddressable "Immediate")

end AddressCode

/-- What a caller may offer for a field of ModR/M. -/
inductive FieldValue
  | operand (o : Operand)
  | number (n : Int)
deriving DecidableEq, Repr

/-- The register field for a value: a register, or a number below eight. -/
def RegField.ofValue : FieldValue → Except EncodeError RegField
  | .operand (.reg r) => .ok (.register r)
  | .operand o =>
    match o.shown? with
    | some shown => .error (.notRegField shown)
    | none => .error .unnamedWidth
  | .number n =>
    if h : 0 ≤ n ∧ n < 8 then .ok (.extension ⟨n.toNat, by omega⟩)
    else .error (.notRegField (toString n))

/-- The code of a pair of values for the two fields of ModR/M. -/
def AddressCode.ofValues (reg rm : FieldValue) : Except EncodeError AddressCode := do
  let field ← RegField.ofValue reg
  match rm with
  | .operand o => ofOperand field o
  | .number _ => .error (.notAddressable "int")

end AsmBridge
