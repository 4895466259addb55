import AsmBridge.Operand

/-!
# Instructions of the target dialect

The lines that the conversion writes in the target dialect itself: those that move arguments and
results, set up the frame, load the address of the constant pool, call helpers, jump and return.
They are instructions with a meaning; `TargetInstruction.text` is their one written form.
-/

namespace AsmBridge

namespace Register

/-- The name of a register in the target dialect. Only whole general-purpose and vector registers
have one. -/
def targetName? : Register → Option String
  | .xmm n => some ("X" ++ toString n.val)
  | .ymm n => some ("Y" ++ toString n.val)
  | .rip => some "IP"
  | .gp .w64 n =>
    some (if n.val < 8 then (Text.dropChars 1 (Register.gp .w64 n).name).toUpper
      else "R" ++ toString n.val)
  | _ => none

/-- The name of a register in the target dialect, its own name where it has none. -/
def targetName (r : Register) : String := r.targetName?.getD r.name

end Register

/-- An operand in the target dialect. -/
inductive TargetOperand
  | reg (r : Register)
  /-- A named slot of the caller's argument area, by its offset in it. -/
  | arg (name : String) (offset : Nat)
  /-- Memory at an offset from a register. -/
  | at (base : Register) (offset : Nat)
deriving DecidableEq, Repr

def TargetOperand.text : TargetOperand → String
  | .reg r => r.targetName
  | .arg name offset => name ++ "+" ++ toString offset ++ "(FP)"
  | .at base offset => toString offset ++ "(" ++ base.targetName ++ ")"

/-- An instruction in the target dialect. The source stands before the destination. -/
inductive TargetInstruction
  /-- Move 64 bits. -/
  | movq (source dest : TargetOperand)
  /-- Move 64 bits from or to a vector register. -/
  | movsd (source dest : TargetOperand)
  /-- Move 128 bits. -/
  | movups (source dest : TargetOperand)
  /-- Move 256 bits. -/
  | vmovdqu (source dest : TargetOperand)
  | addq (n : Int) (r : Register)
  /-- Clear the bits of a register that are not set in `-n`. -/
  | andq (n : Int) (r : Register)
  /-- Load the address of a datum of the unit. -/
  | leaq (symbol : String) (r : Register)
  | call (package stub : String)
  /-- A jump by its name in the target dialect. -/
  | jump (name label : String)
  /-- An instruction without operands that the target dialect has by itself. -/
  | bare (name : String)
  | ret
deriving DecidableEq, Repr

namespace TargetInstruction

/-- The line of an instruction with two operands. -/
def pairText (name : String) (source dest : TargetOperand) : String :=
  name ++ " " ++ source.text ++ ", " ++ dest.text

/-- The line of an instruction. -/
def text : TargetInstruction → String
  | .movq s d => pairText "MOVQ" s d
  | .movsd s d => pairText "MOVSD" s d
  | .movups s d => pairText "MOVUPS" s d
  | .vmovdqu s d => pairText "VMOVDQU" s d
  | .addq n r => "ADDQ $" ++ toString n ++ ", " ++ r.targetName
  | .andq n r => "ANDQ $-" ++ toString n ++ ", " ++ r.targetName
  | .leaq symbol r => "LEAQ " ++ symbol ++ "<>(SB), " ++ r.targetName
  | .call package stub => "CALL " ++ package ++ "·" ++ stub ++ "(SB)"
  | .jump name label => name ++ " " ++ label
  | .bare name => name
  | .ret => "RET"

end TargetInstruction

end AsmBridge
