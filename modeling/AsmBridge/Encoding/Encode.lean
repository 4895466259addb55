import AsmBridge.Encoding.MachineCode
import AsmBridge.Encoding.Table

/-!
# Encoding an instruction

An instruction is looked up in the table, a form is chosen for its operands, and the form is filled
in. `encode` gives the bytes alone, `encodeFully` also the form.
-/

namespace AsmBridge

/-- An instruction with its form and machine code. -/
structure Encoded where
  form : Form
  code : MachineCode
deriving Repr

/-- The form and the machine code of an instruction. -/
def encodeFully (mnemonic : String) (mark : Option String) (ops : List Operand) :
    Except EncodeError Encoded :=
  match Table.lookup? mnemonic with
  | none => .error (.unknownMnemonic mnemonic)
  | some entry => do
    let form ← selectForm entry.mnemonic entry.forms ops
    let code ← form.assemble mark ops
    return ⟨form, code⟩

/-- The machine code of an instruction as bytes. -/
def encode (mnemonic : String) (mark : Option String) (ops : List Operand) :
    Except EncodeError (List UInt8) :=
  (encodeFully mnemonic mark ops).map (·.code.bytes)

/-- An instruction in source form: mark, mnemonic as the table has it, operands. Nothing is
written for an operand whose width has no word. -/
def instructionText? (mnemonic : String) (mark : Option String) (ops : List Operand) :
    Option String := do
  let texts ← ops.mapM (·.text?)
  let name :=
    match mark with
    | some m => m ++ " " ++ mnemonic
    | none => mnemonic
  return Text.trimmed (name ++ " " ++ Text.commaList texts)

end AsmBridge
