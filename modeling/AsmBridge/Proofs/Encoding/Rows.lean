import AsmBridge.Proofs.Encoding.Address
import AsmBridge.Proofs.Encoding.Selection
import Mathlib.Data.List.Basic
import Mathlib.Tactic.MkIffOfInductiveProp

/-!
# The rows of the table

What the types of a form tell of its operands, and what its slots and its opcode tell of the code.
Every row of the table keeps to the rules that a reader of the code relies on (`Form.IsReadable`)
and to those that the sizes of operations, the values of immediates and the length of the code
depend on (`Form.IsRegular`). The table is walked once, with all of them (`Table.isRegular`).
-/

namespace AsmBridge

/-! ## Types -/

namespace OperandType

/-- The type takes registers that have a number, and nothing else. -/
def isRegister : OperandType → Bool
  | .gp _ => true
  | .vector _ _ => true
  | _ => false

/-- The type takes vector registers. -/
def isVector : OperandType → Bool
  | .vector _ _ => true
  | .vectorOrMem _ _ _ => true
  | .fixed r => r.isVector
  | _ => false

/-- The one operand that the type takes, if it takes only one. -/
def only? : OperandType → Option Operand
  | .one => some (.imm 1)
  | .fixed r => some (.reg r)
  | _ => none

/-- The types of one operand, for which the operand itself is written. -/
def literals : List OperandType :=
  [.one, .fixed (.gp .w8 0), .fixed (.gp .w16 0), .fixed (.gp .w32 0), .fixed (.gp .w64 0),
    .fixed (.gp .w8 1)]

/-- The width of the field for an immediate of the type. -/
def immWidth? : OperandType → Option Width
  | .imm w => some w
  | _ => none

/-- The width that a type names for a general-purpose register or a datum. -/
def operationBits? : OperandType → Option ℕ
  | .fixed r => if r.isGeneral then some r.bits else none
  | .gp w => some w.bits
  | .gpOrMem w => some w.bits
  | .gpOrNarrow w _ => some w.bits
  | .vectorOrMem _ _ n => some n
  | .mem bits => bits
  | _ => none

/-- The widths that an operand of the type may name, if it does not take a datum of any width. -/
def widths : OperandType → List ℕ
  | .fixed r => [r.bits]
  | .gp w => [w.bits]
  | .gpOrMem w => [w.bits]
  | .gpOrNarrow w n => [w.bits, n]
  | .vector .xmm _ => [128]
  | .vector .ymm _ => [256]
  | .vectorOrMem .xmm _ n => [128, n]
  | .vectorOrMem .ymm _ n => [256, n]
  | .mem bits => bits.toList
  | _ => []

/-- The type takes registers only, which name a width. -/
def namesWidth : OperandType → Bool
  | .fixed _ => true
  | .gp _ => true
  | .vector _ _ => true
  | _ => false

end OperandType

/-- No operands of these types name 16 bits first. -/
def neverWords : List OperandType → Bool
  | [] => true
  | t :: rest => t != .mem none && !t.widths.contains 16 && (t.namesWidth || neverWords rest)

/-! ## Places -/

/-- The field of the instruction word that a place belongs to; both kinds of immediate share one. -/
def Place.field : Place → Place
  | .immRegister => .imm
  | p => p

/-- Operands of the type can be told from what the place holds. -/
def Place.tells (place : Place) (t : OperandType) : Bool :=
  match place with
  | .rm => true
  | .imm => t.immWidth?.isSome
  | .implied => t.only?.isSome
  | _ => t.isRegister

/-- The room in bytes that a place takes up behind the operand field. -/
def Place.immRoom (place : Place) (t : OperandType) : ℕ :=
  match place with
  | .imm => (t.immWidth?.map (·.bytes)).getD 0
  | .immRegister => 1
  | _ => 0

/-! ## Opcodes -/

/-- The opcode cannot be taken for a prefix, whatever its three low bits are. -/
def headIsOpcode (bytes : List UInt8) (n : Fin 8) : Bool :=
  match bytes with
  | [] => false
  | [b] => (b ||| UInt8.ofNat n.val).toNat / 16 != 4 && (b ||| UInt8.ofNat n.val) != 0x66
  | b :: _ => b.toNat / 16 != 4 && b != 0x66

/-- The room in bytes in front of the opcode, a mark apart: three for VEX, else one for an override
or a mandatory prefix and one for an extension byte. -/
def OpcodeSpec.leadRoom (spec : OpcodeSpec) : ℕ := if spec.vex.isSome then 3 else 2

/-- The opcodes of one byte with an immediate of the size of the operation. -/
def sizedImmediates : List UInt8 :=
  [0x05, 0x0d, 0x15, 0x1d, 0x25, 0x2d, 0x35, 0x3d, 0x68, 0x69, 0x81, 0xa9, 0xc7, 0xf7]

/-- The width in bits of the immediate that a processor reads behind an opcode which has one: of
the size of the operation for some opcodes, at most 32 bits except for the moves into a register,
and a byte for the others. -/
def immediateBits (opcode : List UInt8) (rexW override : Bool) : ℕ :=
  let size := if rexW then 64 else if override then 16 else 32
  match opcode with
  | [b] =>
    if b.toNat / 8 = 0xb8 / 8 then size
    else if sizedImmediates.contains b then min size 32
    else 8
  | _ => 8

/-- The three low bits of a register. -/
def Register.ofLow (n : Fin 8) : Register := .gp .w64 (fourBits false n)

/-! ## Forms -/

/-- The instructions without vectors that take an immediate as a count: rotations, shifts and the
test of a bit. -/
def countMnemonics : List String := ["rol", "ror", "shl", "sal", "shr", "sar", "bt"]

namespace Form

/-- The size of the operation: the width that the first general-purpose or memory type names. -/
def operationBits? (f : Form) : Option ℕ := f.types.findSome? (·.operationBits?)

/-- What the low bits of the opcode may be: those of a register where the opcode holds one, else
zeros. -/
def lowBits (f : Form) : List (Fin 8) :=
  if hasPlace .opcode f.slots then List.finRange 8 else [0]

lemma mem_lowBits {f : Form} {n : Fin 8} :
    n ∈ f.lowBits ↔ hasPlace .opcode f.slots = true ∨ n = 0 := by
  unfold lowBits
  split_ifs with h <;> simp [h]

/-- The immediates of a form are of the width that a processor reads behind its opcode with the
given low bits, if the override is there for operations on 16 bits. -/
def readsImmediate (f : Form) (n : Fin 8) : Bool :=
  (f.types.zip f.slots).all fun q => q.2.place != .imm ||
    q.1.immWidth?.map (·.bits) == some (immediateBits
      (withRegister f.opcode.spec.opcode (some (.ofLow n))) f.opcode.spec.rexW
      (f.operationBits? == some 16))

/-- An immediate of the form is a byte that counts or controls. -/
def takesCount (mnemonic : String) (f : Form) : Bool :=
  countMnemonics.contains mnemonic || f.types.any (·.isVector)

/-- The width with which an immediate of the form is used: a byte where it counts or controls, else
the width of the operation, which is 64 bits for one on the stack. -/
def valueBits (mnemonic : String) (f : Form) : ℕ :=
  if f.takesCount mnemonic then 8 else f.operationBits?.getD 64

/-- The room in bytes for everything behind the opcode and the operand field. -/
def immRoom (f : Form) : ℕ :=
  ((f.types.zip f.slots).map fun q => q.2.place.immRoom q.1).sum

/-- What a reader of the code relies on: each place has one operand, which can be told from it, the
fields of VEX keep to their bits, and an opcode without VEX cannot be taken for a prefix. -/
@[mk_iff]
structure IsReadable (f : Form) : Prop where
  length_slots : f.slots.length = f.types.length
  apart : f.slots.Pairwise fun s t =>
    (s.place = .implied ∨ s.place.field ≠ t.place.field) ∧
      (t.place = .implied ∨ t.place.field ≠ s.place.field)
  tells : ∀ q ∈ f.types.zip f.slots, q.2.place.tells q.1 = true
  rm_of_reg : hasPlace .reg f.slots = true → hasPlace .rm f.slots = true
  opcode : hasPlace .opcode f.slots = true → hasPlace .rm f.slots = false ∧
    ∃ b ∈ f.opcode.spec.opcode.getLast?, b.toNat % 8 = 0
  vex_of_vvvv : hasPlace .vvvv f.slots = true → f.opcode.spec.vex.isSome = true
  vex : ∀ v ∈ f.opcode.spec.vex, v.w < 2 ∧ v.l < 2 ∧ v.pp < 4 ∧ v.m < 32
  head : f.opcode.spec.vex = none → f.lowBits.all (headIsOpcode f.opcode.spec.opcode) = true

/-- What a form without VEX keeps to. -/
@[mk_iff]
structure IsLegacy (f : Form) : Prop where
  /-- Operands that name 16 bits first are those of 16-bit operations. -/
  neverWords : f.operationBits? ≠ some 16 → AsmBridge.neverWords f.types = true
  /-- The first operand of a 16-bit operation is of 16 bits. -/
  word : f.operationBits? = some 16 → f.types.head?.map (·.widths) = some [16]
  /-- No immediate byte holds a register. -/
  immRegister : hasPlace .immRegister f.slots = false
  /-- The immediates are of the widths that a processor reads. -/
  immediate : f.lowBits.all f.readsImmediate = true
  /-- No opcode without prefixes begins with a source mark. -/
  mark : f.opcode.spec.mandatory = none → (f.lowBits.all fun n => sourceMarks.all fun p =>
    p.2 != (withRegister f.opcode.spec.opcode (some (.ofLow n))).headD 0) = true

/-- What a row of the table keeps to, among the forms of an instruction of the given name. -/
@[mk_iff]
structure IsRegular (mnemonic : String) (f : Form) : Prop where
  readable : f.IsReadable
  legacy : f.opcode.spec.vex = none → f.IsLegacy
  /-- ModR/M has a register or bits of opcode in its register field, but not both. -/
  extension : hasPlace .reg f.slots = true → f.opcode.spec.extension = none
  /-- What stands in the operand field is a register or a datum. -/
  rm : ∀ q ∈ f.types.zip f.slots, q.2.place = .rm → q.1 ≠ .one ∧ q.1.immWidth? = none
  /-- A type of one operand is one that the notation has. -/
  literal : ∀ t ∈ f.types, t.only?.isSome = true → t ∈ OperandType.literals
  opcode_ne_nil : f.opcode.spec.opcode ≠ []
  /-- There is room for the code in fifteen bytes, a mark included. -/
  length_le : 1 + f.opcode.spec.leadRoom + f.opcode.spec.opcode.length +
    (if hasPlace .rm f.slots then 6 else 0) + f.immRoom ≤ 15
  /-- Operands with an address are barred from no form. -/
  barred : ∀ ops ∈ f.barred, ∀ o ∈ ops, o.address? = none
  /-- Immediates have bytes of their own, no wider than they are used with; and where they neither
  count nor control, all other operands are as wide as the operation. -/
  value : ∀ q ∈ f.types.zip f.slots, ∀ w ∈ q.1.immWidth?, q.2.place = .imm ∧
    w.bits ≤ f.valueBits mnemonic ∧ (f.takesCount mnemonic = false →
      ∀ t ∈ f.types, t ≠ .mem none ∧ ∀ n ∈ t.widths, n = f.valueBits mnemonic)

instance (f : Form) : Decidable f.IsReadable := decidable_of_iff' _ f.isReadable_iff

instance (f : Form) : Decidable f.IsLegacy := decidable_of_iff' _ f.isLegacy_iff

instance (mnemonic : String) (f : Form) : Decidable (f.IsRegular mnemonic) :=
  decidable_of_iff' _ (isRegular_iff mnemonic f)

end Form

/-- What an instruction of the table keeps to. -/
@[mk_iff]
structure Table.Entry.IsRegular (e : Table.Entry) : Prop where
  form : ∀ f ∈ e.forms, f.IsRegular e.mnemonic
  /-- Beside a 16-bit form without prefixes the 32-bit forms have none either. -/
  doubleword : (∃ f ∈ e.forms, f.operationBits? = some 16 ∧ f.opcode.spec.vex = none ∧
      f.opcode.spec.mandatory = none) →
    ∀ g ∈ e.forms, g.operationBits? = some 32 →
      g.opcode.spec.vex = none ∧ g.opcode.spec.mandatory = none

instance (e : Table.Entry) : Decidable e.IsRegular := decidable_of_iff' _ e.isRegular_iff

/-- Every instruction of the table is regular. -/
theorem Table.isRegular : ∀ entry ∈ Table.entries, entry.IsRegular := by
  decide +kernel

/-- A form of the table is one of a regular row. -/
theorem Form.IsListed.isRegular {f : Form} (h : f.IsListed) : ∃ mnemonic, f.IsRegular mnemonic := by
  obtain ⟨entry, hentry, hf⟩ := h
  exact ⟨entry.mnemonic, (Table.isRegular entry hentry).form f hf⟩

/-- Every form of the table can be read. -/
theorem Form.IsListed.isReadable {f : Form} (h : f.IsListed) : f.IsReadable := by
  obtain ⟨mnemonic, hregular⟩ := h.isRegular
  exact hregular.readable

end AsmBridge
