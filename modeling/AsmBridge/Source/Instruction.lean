import AsmBridge.Source.Operand
import AsmBridge.Record
import AsmBridge.Encoding.MachineCode

/-!
# Reading instructions

A statement is a mnemonic, which a mark such as `lock` may precede, and operands that commas
outside of brackets separate. The mnemonic is not checked here.
-/

namespace AsmBridge.Source

/-- A mnemonic in lower case and the text behind the blanks after it, if there are any. -/
def splitMnemonic? (s : List Char) : Option (String × Option (List Char)) :=
  match s with
  | [] => none
  | c :: _ =>
    if !c.isAlpha then none
    else
      let name := String.ofList ((s.takeWhile Char.isAlphanum).map Char.toLower)
      match s.dropWhile Char.isAlphanum with
      | [] => some (name, none)
      | d :: rest =>
        if Text.isBlank d then (restOfLine? (Text.trimLeft rest)).map fun ops => (name, some ops)
        else none

/-- The parts of a text between the commas outside of brackets. `depth` counts the brackets that
are open and `run` is the reverse of the part being read. -/
def operandsFrom (depth : Int) : List Char → List Char → List (List Char)
  | run, [] => [Text.trim run.reverse]
  | run, c :: rest =>
    let depth := if c == '[' then depth + 1 else if c == ']' then depth - 1 else depth
    if c == ',' && depth == 0 then Text.trim run.reverse :: operandsFrom depth [] rest
    else operandsFrom depth (c :: run) rest

/-- The texts of the operands, none of which may be empty. -/
def splitOperands (line : Option Nat) (ops : List Char) : Except Fault (List (List Char)) :=
  let parts := operandsFrom 0 [] ops
  let text := String.ofList ops
  if parts.any (·.isEmpty) then .error (defectAt line text (.emptyOperand text)) else .ok parts

/-- The operands that were read and the last problem with one that was left out. -/
structure Operands where
  operands : List Operand := []
  problem : Option Diagnostic := none

/-- One operand more. An operand that is well formed but has no counterpart in the target is left
out and leaves a problem. -/
def Operands.add (line : Option Nat) (s : Operands) (op : List Char) : Except Fault Operands :=
  match readOperand line op with
  | .ok o => .ok { s with operands := s.operands ++ [o] }
  | .error (.defect d) =>
    if d.defect.kind = .instruction then .ok { s with problem := some d }
    else .error (.defect d)
  | .error e => .error e

/-- The operands of a text. -/
def readOperands (line : Option Nat) : Option (List Char) → Except Fault Operands
  | none => .ok {}
  | some ops =>
    if (Text.trim ops).isEmpty then .ok {}
    else do (← splitOperands line ops).foldlM (Operands.add line) {}

/-- A mark, a mnemonic and the text of the operands. -/
def splitStatement (line : Option Nat) (s : List Char) :
    Except Fault (Option String × String × Option (List Char)) :=
  let text := String.ofList s
  match splitMnemonic? s with
  | none => .error (defectAt line text (.mnemonicExpected text))
  | some (name, ops) =>
    match sourceMark? name, ops with
    | some _, some (c :: rest) =>
      match splitMnemonic? (Text.trim (c :: rest)) with
      | none =>
        .error (defectAt line (String.ofList (c :: rest)) (.mnemonicExpectedAfterMark text))
      | some (next, more) => .ok (some name, next, more)
    | _, _ => .ok (none, name, ops)

/-- The instruction of a statement without label and comment. -/
def readInstruction (line : Option Nat) (s : List Char) : Except Fault Instruction := do
  let (mark, mnemonic, ops) ← splitStatement line s
  let read ← readOperands line ops
  return {
    mnemonic := mnemonic
    operands := read.operands
    mark := mark
    line := line
    text := Text.squeezed s
    problem := read.problem }

end AsmBridge.Source
