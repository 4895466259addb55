import AsmBridge.Encoding.Encode
import AsmBridge.Function.Basic

/-!
# Register accesses

Which registers an instruction reads and which it writes, in the order of its operands, with the
registers it uses without naming them. The encoding table tells how a form uses its operands; an
instruction without a form is taken to update its first operand from the others.
-/

namespace AsmBridge

/-- The registers an instruction reads and writes. -/
structure Access where
  reads : List Register := []
  writes : List Register := []
  /-- The vector registers of which only a 32-bit element is read. -/
  narrow : List Register := []
deriving DecidableEq, Repr

namespace Access

/-- Instructions whose result is zero when their two sources are the same register. -/
def zeroing : List String := [
  "xor", "sub", "pxor", "xorps", "xorpd", "psubb", "psubw", "psubd", "psubq", "vxorps", "vxorpd",
  "vpxor", "vpsubb", "vpsubw", "vpsubd", "vpsubq"]

/-- The registers that a helper may overwrite. -/
def callerSaved : List Register :=
  [.rax, .rcx, .rdx, .rsi, .rdi] ++ [8, 9, 10, 11].map (.gp .w64) ++ Register.numbers.map .ymm

/-- How an operand is used, and the type it has in the form of the instruction, if it has a
form. -/
structure Role where
  use : Use
  type : Option OperandType := none
deriving DecidableEq, Repr

/-- The first operand is updated from the others. -/
def defaultRoles : List Operand → List Role
  | [] => []
  | _ :: rest => ⟨.readWrite, none⟩ :: rest.map fun _ => ⟨.read, none⟩

/-- The roles of the operands. -/
def roles (i : Instruction) : Except EncodeError (List Role) :=
  match Table.lookup? i.mnemonic with
  | none => .ok (defaultRoles i.operands)
  | some entry =>
    match selectForm entry.mnemonic entry.forms i.operands with
    | .ok form => .ok ((form.types.zip form.slots).map fun p => ⟨p.2.use, some p.1⟩)
    | .error e => if e.isRefusal then .ok (defaultRoles i.operands) else .error e

/-- The operand type accepts a 32-bit datum in place of a register. -/
def acceptsSingle : OperandType → Bool
  | .gpOrNarrow _ n => n == 32
  | .gpOrMem w => w == .w32
  | .vectorOrMem _ _ n => n == 32
  | _ => false

/-- The accesses that come from the use of an operand. -/
def ofOperand (mnemonic : String) (o : Operand) (role : Role) : Access :=
  match o with
  | .reg r =>
    if r = .gp .w8 1 ∧ role.type = some (.fixed (.gp .w8 1)) then { reads := [.rcx] }
    else
      let single := r.isVector && role.use.reads &&
        (Text.endsWith "ss" mnemonic || (role.type.map acceptsSingle).getD false)
      { reads := if role.use.reads then [r] else []
        writes := if role.use.writes then [r] else []
        narrow := if single then [r] else [] }
  | _ => {}

/-- The accesses of two parts of an instruction together. -/
def append (a b : Access) : Access :=
  ⟨a.reads ++ b.reads, a.writes ++ b.writes, a.narrow ++ b.narrow⟩

/-- The register that shares the storage of `r` and has the given width. -/
def aliasOf (r : Register) (bits : Nat) : Except Stop Register :=
  match r.alias? bits with
  | some a => .ok a
  | none => .error .accumulatorMissing

/-- The width of a multiplication or division by its operand. -/
def factorBits : List Operand → Except Stop Nat
  | [] => .ok 64
  | .reg r :: _ => .ok r.bits
  | .mem a :: _ =>
    .ok (match a.bits with
      | some 0 => 64
      | some n => n
      | none => 64)
  | _ => .error .registerExpected

/-- The accumulators of a multiplication or a division. -/
def accumulators (divides : Bool) (ops : List Operand) : Except Stop Access := do
  let bits ← factorBits ops
  if bits = 8 then
    let whole ← aliasOf .rax 16
    let low ← aliasOf .rax (if divides then 16 else 8)
    return { reads := [low], writes := [whole] }
  else
    let low ← aliasOf .rax bits
    let high ← aliasOf .rdx bits
    return { reads := if divides then [low, high] else [low], writes := [low, high] }

/-- The width that the last letter of a string store names. -/
def storeBits (mnemonic : String) : Except Stop Nat :=
  match mnemonic.toList.getLast? with
  | some 'b' => .ok 8
  | some 'w' => .ok 16
  | some 'd' => .ok 32
  | some 'q' => .ok 64
  | _ => .error .accumulatorMissing

/-- The pointers and the accumulator of a string move or store. -/
def strings (i : Instruction) : Except Stop Access :=
  if Text.startsWith "movs" i.mnemonic && i.operands.isEmpty then
    .ok { reads := [.rsi, .rdi], writes := [.rsi, .rdi] }
  else if Text.startsWith "stos" i.mnemonic && i.operands.isEmpty then do
    let value ← aliasOf .rax (← storeBits i.mnemonic)
    return { reads := [.rdi, value], writes := [.rdi] }
  else .ok {}

/-- The counter of a repeated instruction. -/
def counter (i : Instruction) : Access :=
  if (i.mark.map (Text.startsWith "rep" ·)).getD false then
    { reads := [.rcx], writes := [.rcx] }
  else {}

/-- The accesses of an instruction to registers that it does not name. -/
def implicit (i : Instruction) : Except Stop Access :=
  let gp (w : Width) (n : Fin 16) : Register := .gp w n
  match i.mnemonic with
  | "cqo" => .ok { reads := [.rax], writes := [.rdx] }
  | "cdq" => .ok { reads := [gp .w32 0], writes := [gp .w32 2] }
  | "cdqe" => .ok { reads := [gp .w32 0], writes := [.rax] }
  | "cwde" => .ok { reads := [gp .w16 0], writes := [gp .w32 0] }
  | "mul" => accumulators false i.operands
  | "div" => accumulators true i.operands
  | "idiv" => accumulators true i.operands
  | mnemonic =>
    if mnemonic == "imul" && i.operands.length == 1 then accumulators false i.operands
    else (strings i).map (·.append (counter i))

/-- The first operand, if the instruction only sets it to zero. -/
def zeroed? (i : Instruction) : Option Operand :=
  if zeroing.contains i.mnemonic then
    match i.operands, i.operands.reverse with
    | first :: _, .reg a :: .reg b :: _ => if a = b then some first else none
    | _, _ => none
  else none

/-- The registers that the addresses of an instruction are computed from. -/
def addressReads (i : Instruction) : List Register := i.addresses.flatMap (·.registers)

/-- The accesses of an instruction. A call reads the first three integer arguments. -/
def ofInstruction (i : Instruction) : Except Fault Access :=
  let addressing : Access := { reads := addressReads i }
  if i.isCall then
    .ok (addressing.append { reads := Register.integerArguments.take 3, writes := callerSaved })
  else if i.isJump || i.isRet then .ok addressing
  else
    match zeroed? i with
    | some (.reg r) => .ok { addressing with writes := [r] }
    | some _ => .error (.stop .registerExpected)
    | none => do
      let roles ← (roles i).mapError Fault.encoding
      let named := (i.operands.zip roles).foldl
        (fun acc p => acc.append (ofOperand i.mnemonic p.1 p.2)) addressing
      return named.append (← (implicit i).mapError Fault.stop)

end Access

/-- The first access to a family of registers. -/
structure FirstAccess where
  family : Register
  isRead : Bool
  register : Register
  instruction : Instruction
  narrow : Bool
deriving DecidableEq, Repr

namespace FirstAccess

/-- The accesses with one more, unless its family has one. -/
def note (found : List FirstAccess) (a : FirstAccess) : List FirstAccess :=
  if found.any (·.family == a.family) then found else found ++ [a]

/-- The accesses with those of one more instruction, its reads before its writes. -/
def scan (found : List FirstAccess) (i : Instruction) : Except Fault (List FirstAccess) := do
  let a ← Access.ofInstruction i
  let found := a.reads.foldl
    (fun found r => note found ⟨r.family, true, r, i, a.narrow.contains r⟩) found
  return a.writes.foldl (fun found r => note found ⟨r.family, false, r, i, false⟩) found

/-- The first access to each family of registers in a row of instructions. -/
def ofInstructions (is : List Instruction) : Except Fault (List FirstAccess) :=
  is.foldlM scan []

end FirstAccess

end AsmBridge
