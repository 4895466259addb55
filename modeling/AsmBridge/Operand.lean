import AsmBridge.Register
import AsmBridge.Text.Quoted

/-!
# Operands

An operand is a register, a number, a symbol, or a memory operand: the sum of a base, a scaled
index, a displacement and possibly a symbol, with the width of the addressed data where the source
names it.
-/

namespace AsmBridge

-- Powers of natural numbers are those of the core library.
attribute [local instance (high)] instPowNat

/-- The factor of an index register. -/
inductive Scale
  | one
  | two
  | four
  | eight
deriving DecidableEq, Repr, Inhabited

namespace Scale

def factor : Scale → Nat
  | .one => 1
  | .two => 2
  | .four => 4
  | .eight => 8

/-- The two bits that stand for the factor, its binary logarithm. -/
def code : Scale → Fin 4
  | .one => 0
  | .two => 1
  | .four => 2
  | .eight => 3

/-- The scale with the given factor. -/
def ofFactor? (n : Int) : Option Scale :=
  [Scale.one, .two, .four, .eight].find? fun s => (s.factor : Int) == n

theorem two_pow_code (s : Scale) : 2 ^ s.code.val = s.factor := by cases s <;> rfl

end Scale

/-- The words that may stand before `ptr`, with the width in bits that they name. -/
def sizeWords : List (Nat × String) :=
  [(8, "byte"), (16, "word"), (32, "dword"), (64, "qword"), (80, "tbyte"), (128, "xmmword"),
    (256, "ymmword"), (512, "zmmword")]

/-- The word for a width in bits. -/
def sizeWord? (bits : Nat) : Option String :=
  (sizeWords.find? fun p => p.1 == bits).map (·.2)

/-- A memory operand. -/
structure Address where
  base : Option Register := none
  index : Option Register := none
  scale : Option Scale := none
  disp : Int := 0
  /-- Width in bits of the addressed data, if the source names it. -/
  bits : Option Nat := none
  /-- The datum that an address relative to the instruction pointer refers to. -/
  symbol : Option String := none
deriving DecidableEq, Repr, Inhabited

namespace Address

/-- The address with the given parts; an index without a scale has the scale one. -/
def ofParts (base index : Option Register) (scale : Option Scale) (disp : Int)
    (bits : Option Nat) (symbol : Option String) : Address :=
  ⟨base, index, if index.isSome && scale.isNone then some .one else scale, disp, bits, symbol⟩

/-- The address is relative to the instruction pointer. -/
def ripRelative (a : Address) : Bool := a.base == some .rip

/-- The registers that the address is computed from, the instruction pointer apart. -/
def registers (a : Address) : List Register :=
  [a.base, a.index].filterMap fun r => r.filter (· != .rip)

/-- The address of the same datum relative to another register. -/
def rebase (a : Address) (base : Register) (disp : Int) : Address :=
  { base := some base, disp := disp, bits := a.bits }

/-- The terms of the sum other than the displacement. -/
def terms (a : Address) : List String :=
  (a.base.map (·.name)).toList ++
    (a.index.map fun r =>
      match a.scale with
      | some .two => "2*" ++ r.name
      | some .four => "4*" ++ r.name
      | some .eight => "8*" ++ r.name
      | _ => r.name).toList ++
    a.symbol.toList

/-- The displacement as it stands in the sum: behind other terms it shows its sign as an operator
and is left out when it is zero. -/
def dispText (a : Address) : String :=
  if a.terms.isEmpty then "0x" ++ Text.hexInt a.disp
  else if a.disp < 0 then " - 0x" ++ Text.hexInt (-a.disp)
  else if a.disp = 0 then ""
  else " + 0x" ++ Text.hexInt a.disp

/-- The sum in brackets. -/
def sumText (a : Address) : String :=
  "[" ++ String.intercalate " + " a.terms ++ a.dispText ++ "]"

/-- The operand in source form. A width without a word cannot be written. -/
def text? (a : Address) : Option String :=
  match a.bits with
  | none => some a.sumText
  | some n => (sizeWord? n).map fun w => w ++ " ptr " ++ a.sumText

/-- The operand in source form, without its width if there is no word for it. -/
def text (a : Address) : String := a.text?.getD a.sumText

/-- Bytes read through the address as far as its width tells, and at least one. -/
def accessBytes (a : Address) : Nat :=
  match a.bits with
  | none => 1
  | some n => max (n / 8) 1

end Address

/-- An operand of an instruction. -/
inductive Operand
  | reg (r : Register)
  /-- An immediate value. -/
  | imm (value : Int)
  /-- The target of a jump or call. -/
  | sym (name : String)
  | mem (a : Address)
deriving DecidableEq, Repr, Inhabited

namespace Operand

/-- A number as an immediate is written: decimal up to nine and below zero, else hexadecimal. -/
def immText (v : Int) : String :=
  if v ≤ 9 then toString v else "0x" ++ Text.hexInt v

/-- The operand in source form; see `Address.text?`. -/
def text? : Operand → Option String
  | .reg r => some r.name
  | .imm v => some (immText v)
  | .sym s => some s
  | .mem a => a.text?

/-- The operand in source form; see `Address.text`. -/
def text : Operand → String
  | .reg r => r.name
  | .imm v => immText v
  | .sym s => s
  | .mem a => a.text

/-- The operand as diagnostics and listings of operands show it; see `Address.text?`. -/
def shown? : Operand → Option String
  | .reg r =>
    some ("Register(0x" ++ Text.hex 1 r.number ++ ", " ++ r.name ++ ", " ++ toString r.bits ++ ")")
  | .imm v => some ("Immediate(" ++ immText v ++ ")")
  | .sym s => some ("Immediate(" ++ s ++ ")")
  | .mem a => a.text?.map fun t => "Pointer(" ++ t ++ ")"

/-- The memory operand, if it is one. -/
def address? : Operand → Option Address
  | .mem a => some a
  | _ => none

/-- The registers that occur in the operand. -/
def registers : Operand → List Register
  | .reg r => [r]
  | .mem a => a.registers
  | _ => []

end Operand

end AsmBridge
