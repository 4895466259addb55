import AsmBridge.Defect
import AsmBridge.Section

/-!
# Records of an assembly unit

A unit is a row of labels, directives and instructions. Each record knows its line and the section
in effect; an instruction also the label before it and the text it was read from.
-/

namespace AsmBridge

/-- A label. -/
structure Label where
  name : String
  line : Option Nat := none
  sect : Option String := none
deriving DecidableEq, Repr

namespace Label

/-- A label that the compiler made for itself. -/
def isLocal (l : Label) : Bool :=
  Text.startsWithAny [".L", "LBB", "LCPI", "Lfunc_end", "Ltmp", "L.str", "ltmp"] l.name

/-- A label that begins a function: it stands in a section of instructions and is not local. -/
def isFunction (l : Label) : Bool :=
  ((l.sect.map Section.isText).getD false) && !l.isLocal

/-- The label ends a function of its own accord. -/
def isFunctionEnd (l : Label) : Bool := Text.contains "func_end" l.name || l.isFunction

end Label

/-- A directive with the text of its arguments. -/
structure Directive where
  name : String
  args : String := ""
  line : Option Nat := none
  sect : Option String := none
deriving DecidableEq, Repr

namespace Directive

/-- The directive in source form. -/
def text (d : Directive) : String := Text.trimmed (d.name ++ " " ++ d.args)

/-- How far the arguments of a directive are read. -/
structure ArgState where
  /-- The arguments that are complete, last first. -/
  done : List String := []
  /-- The argument that is being read, last character first. -/
  current : List Char := []
  quoted : Bool := false
  escaped : Bool := false

/-- The argument that is being read, without blanks around it. -/
def ArgState.argument (s : ArgState) : String := String.ofList (Text.trim s.current.reverse)

/-- One character more. Commas and escapes count as such outside and inside of quotes,
respectively. -/
def ArgState.step (s : ArgState) (c : Char) : ArgState :=
  if s.escaped then { s with current := c :: s.current, escaped := false }
  else if c == '\\' && s.quoted then { s with current := c :: s.current, escaped := true }
  else if c == '"' then { s with current := c :: s.current, quoted := !s.quoted }
  else if c == ',' && !s.quoted then { s with done := s.argument :: s.done, current := [] }
  else { s with current := c :: s.current }

/-- The arguments, which commas separate; quoted strings stay whole. -/
def argv (d : Directive) : List String :=
  let s := (Text.chars d.args).foldl ArgState.step {}
  if s.argument.isEmpty && s.done.isEmpty then [] else (s.argument :: s.done).reverse

end Directive

/-- A machine instruction. -/
structure Instruction where
  mnemonic : String
  operands : List Operand := []
  /-- The word before the mnemonic, such as `lock` or `rep`. -/
  mark : Option String := none
  comment : Option String := none
  line : Option Nat := none
  /-- The nearest label before the instruction. -/
  after : Option String := none
  /-- The statement with single spaces between its words. -/
  text : String := ""
  sect : Option String := none
  /-- What rules out converting the instruction, found while reading it. -/
  problem : Option Diagnostic := none
deriving DecidableEq, Repr

/-- Jumps with their names in the target dialect. -/
def jumpNames : List (String × String) := [
  ("jmp", "JMP"), ("je", "JEQ"), ("jz", "JEQ"), ("jne", "JNE"), ("jnz", "JNE"), ("jb", "JCS"),
  ("jc", "JCS"), ("jnae", "JCS"), ("jae", "JCC"), ("jnb", "JCC"), ("jnc", "JCC"), ("ja", "JHI"),
  ("jnbe", "JHI"), ("jbe", "JLS"), ("jna", "JLS"), ("jl", "JLT"), ("jnge", "JLT"), ("jge", "JGE"),
  ("jnl", "JGE"), ("jle", "JLE"), ("jng", "JLE"), ("jg", "JGT"), ("jnle", "JGT"), ("js", "JMI"),
  ("jns", "JPL"), ("jo", "JOS"), ("jno", "JOC"), ("jp", "JPS"), ("jpe", "JPS"), ("jnp", "JPC"),
  ("jpo", "JPC")]

namespace Instruction

/-- The name of a jump in the target dialect. -/
def jumpName? (i : Instruction) : Option String := jumpNames.lookup i.mnemonic

def isJump (i : Instruction) : Bool := i.jumpName?.isSome

def isCall (i : Instruction) : Bool := i.mnemonic == "call"

def isRet (i : Instruction) : Bool := i.mnemonic == "ret"

/-- The symbol that a jump or a call names as its only operand. -/
def target? (i : Instruction) : Option String :=
  match i.operands with
  | [.sym s] => some s
  | _ => none

/-- The memory operands. -/
def addresses (i : Instruction) : List Address := i.operands.filterMap (·.address?)

/-- The registers that occur in the operands, those of addresses included. -/
def registers (i : Instruction) : List Register := i.operands.flatMap (·.registers)

/-- The instruction is this one, without regard to a mark. -/
def isExactly (i : Instruction) (mnemonic : String) (ops : List Operand) : Bool :=
  i.mnemonic == mnemonic && i.operands == ops

end Instruction

/-- A record of a unit. -/
inductive Record
  | label (l : Label)
  | directive (d : Directive)
  | instruction (i : Instruction)
deriving DecidableEq, Repr

end AsmBridge
