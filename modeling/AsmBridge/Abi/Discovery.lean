import AsmBridge.Access
import AsmBridge.Prototype

/-!
# Discovering signatures

Without a declaration the arguments of a function are those argument registers that its body reads
before it writes them, all registers before such a one in its class, and the words above the return
address that it reads.
-/

namespace AsmBridge

/-- A defect in the size of an argument, shown by an instruction of a function. -/
def argumentFault (function : String) (i : Instruction) (d : Defect) : Fault :=
  .defect { defect := d, function := some function, line := i.line, construct := some i.text }

/-- An address of an incoming stack argument: at least 16 bytes above the frame pointer. -/
def Address.isStackArgument (a : Address) : Bool :=
  (a.base.map (·.family)) == some .rbp && a.index.isNone && 16 ≤ a.disp

/-- The words above the return address that an access to a stack argument reaches. -/
def stackWords (a : Address) : Nat :=
  let bytes : Int := max (((a.bits.filter (· != 0)).getD 64) / 8 : Nat) 8
  ((a.disp - 16 + bytes + 7) / 8).toNat

/-- The access is not to whole words from a word boundary on. -/
def isNarrowStackAccess (i : Instruction) (a : Address) : Bool :=
  i.mnemonic != "lea" && ((a.disp - 16) % 8 != 0 || (a.bits.map fun n => decide (n < 64)).getD false)

/-- The words read as stack arguments after one more address of an instruction. -/
def noteStackArgument (function : String) (n : Nat) (p : Instruction × Address) :
    Except Fault Nat :=
  let (i, a) := p
  if !a.isStackArgument then .ok n
  else if isNarrowStackAccess i a then
    .error (argumentFault function i (.narrowStackArgument a.text))
  else .ok (max n (stackWords a))

namespace SourceFunction

/-- The addresses of a body with their instructions, in order. -/
def addresses (f : SourceFunction) : List (Instruction × Address) :=
  f.instructions.flatMap fun i => i.addresses.map fun a => (i, a)

/-- The number of words that the body reads as incoming stack arguments. -/
def stackArguments (f : SourceFunction) : Except Fault Nat :=
  f.addresses.foldlM (noteStackArgument f.name) 0

end SourceFunction

/-- What rules out that the register first read as told is an argument of the class. -/
def firstReadDefect? (c : ArgClass) (r : Register) (a : FirstAccess) : Option Defect :=
  match c with
  | .integer => if a.register.bits != 64 then some (.narrowArgument r.name a.register.name) else none
  | .float => if a.narrow then some (.singleArgument r.name) else none

/-- The number of arguments of a class after one more of its registers, `position` from its
start. -/
def noteArgument (name : String) (c : ArgClass) (found : List FirstAccess) (n : Nat)
    (p : Register × Nat) : Except Fault Nat :=
  let (r, position) := p
  match found.find? (·.family == r.family) with
  | some a =>
    if !a.isRead then .ok n
    else
      match firstReadDefect? c r a with
      | some d => .error (argumentFault name a.instruction d)
      | none => .ok (position + 1)
  | none => .ok n

/-- The number of arguments of a class: the position behind its last register that is read
first. -/
def countArguments (name : String) (c : ArgClass) (registers : List Register)
    (found : List FirstAccess) : Except Fault Nat :=
  registers.zipIdx.foldlM (noteArgument name c found) 0

namespace SourceFunction

/-- The first access to each family of registers. -/
def firstAccesses (f : SourceFunction) : Except Fault (List FirstAccess) :=
  FirstAccess.ofInstructions f.instructions

/-- The signature that the body implies. Stack arguments are only used once the integer registers
run out. -/
def discoverSignature (f : SourceFunction) (name : String) : Except Fault Signature := do
  let name := if name.isEmpty then f.name else name
  let found ← f.firstAccesses
  let integers ← countArguments name .integer Register.integerArguments found
  let floats ← countArguments name .float Register.vectorArguments found
  let stack ← f.stackArguments
  return Signature.discover name
    (if stack = 0 then integers else Register.integerArguments.length) floats stack

/-- The signature of a function: declared under its symbol or its name, or else discovered. -/
def resolveSignature (f : SourceFunction) (symbol : String) (prototypes : Prototypes) :
    Except Fault Signature := do
  let s ←
    match (prototypes.find? symbol).or (prototypes.find? f.name) with
    | some s => do
      let _ ← f.stackArguments
      pure s
    | none => f.discoverSignature symbol
  s.validate

end SourceFunction

/-- Where an argument goes. -/
inductive ArgPlace
  | register (r : Register)
  /-- A word above the return address, by its number. -/
  | spill (n : Nat)
deriving DecidableEq, Repr

/-- An argument with its offset in the caller's argument area and the place it goes to. -/
structure ArgSlot where
  argument : Argument
  offset : Nat
  place : ArgPlace
deriving DecidableEq, Repr

namespace ArgSlot

/-- The operand that names the argument in the target dialect. -/
def fpText (s : ArgSlot) : String := s.argument.name ++ "+" ++ toString s.offset ++ "(FP)"

def register? (s : ArgSlot) : Option Register :=
  match s.place with
  | .register r => some r
  | .spill _ => none

def spill? (s : ArgSlot) : Option Nat :=
  match s.place with
  | .register _ => none
  | .spill n => some n

end ArgSlot

/-- The registers that are left and the number of the next spilled argument. -/
structure ArgSupply where
  integers : List Register := Register.integerArguments
  floats : List Register := Register.vectorArguments
  spilled : Nat := 0
deriving Repr

/-- The place of the next argument of a class, and what is left. -/
def ArgSupply.take (s : ArgSupply) (c : Option ArgClass) : ArgPlace × ArgSupply :=
  match c, s.integers, s.floats with
  | some .integer, r :: rest, _ => (.register r, { s with integers := rest })
  | some .float, _, r :: rest => (.register r, { s with floats := rest })
  | _, _, _ => (.spill s.spilled, { s with spilled := s.spilled + 1 })

/-- The slots of arguments from an offset on. -/
def assignFrom (offset : Nat) (supply : ArgSupply) : List Argument → List ArgSlot
  | [] => []
  | a :: rest =>
    let (place, supply) := supply.take a.class?
    ⟨a, offset, place⟩ :: assignFrom (offset + 8) supply rest

/-- The slots of the arguments of a signature, in order. Integer and vector registers are counted
independently. -/
def assignArguments (s : Signature) : List ArgSlot := assignFrom 0 {} s.args

end AsmBridge
