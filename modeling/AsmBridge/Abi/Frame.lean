import AsmBridge.Abi.Discovery

/-!
# Frames

A converted body keeps its own stack discipline inside a frame of fixed size. From the top the
frame holds the spilled arguments above the slots of a saved frame pointer and a return address, the
body's pushes and locals, and the room below the stack pointer that helper calls need; slack lets
its base be aligned.
-/

namespace AsmBridge

/-- The frame of a function, by the sizes of its parts in bytes; arguments and pushes are counted
in words. -/
structure FrameLayout where
  locals : Int := 0
  spills : Int := 0
  pushes : Int := 0
  callReserve : Int := 0
  align : Int := 16
  realign : Int := 0
  /-- The body touches the stack; otherwise there is no frame. -/
  framed : Bool := true
deriving DecidableEq, Repr

namespace FrameLayout

/-- The bytes that a realignment of the stack pointer may cost. -/
def realignPad (l : FrameLayout) : Int := if l.realign = 0 then 0 else l.realign - 8

/-- The bytes that the parts need together. -/
def rawSize (l : FrameLayout) : Int :=
  16 + 8 * l.spills + l.locals + 8 * l.pushes + l.callReserve + (l.align - 8) + l.realignPad

/-- The size of the frame, a multiple of its alignment. -/
def size (l : FrameLayout) : Int :=
  if l.framed then (l.rawSize + l.align - 1).fdiv l.align * l.align else 0

/-- The sizes can be written. -/
def isWritable (l : FrameLayout) : Bool :=
  Text.isWritable l.size && Text.isWritable l.locals && Text.isWritable l.align

/-- The offset from the caller's stack pointer below which the base is sought. -/
def baseOffset (l : FrameLayout) : Int := l.size - 16 - 8 * l.spills

end FrameLayout

/-- Moves of vectors that require an aligned address. -/
def alignedMoves : List String := [
  "movaps", "movapd", "movdqa", "movntps", "movntpd", "movntdq", "movntdqa", "vmovaps", "vmovapd",
  "vmovdqa", "vmovntps", "vmovntpd", "vmovntdq", "vmovntdqa"]

/-- Legacy vector instructions that do without an aligned address. -/
def unalignedMoves : List String := [
  "movups", "movupd", "movdqu", "lddqu", "movss", "movsd", "movd", "movq", "movhps", "movlps",
  "movhpd", "movlpd"]

/-- The width of the widest vector register of an instruction. -/
def vectorBits (i : Instruction) : Nat :=
  let widths := i.operands.filterMap fun
    | .reg r => if r.isVector then some r.bits else none
    | _ => none
  if widths.isEmpty then 128 else widths.foldl max 0

/-- The alignment in bytes that an instruction requires of an address, zero if none. -/
def requiredAlignment (i : Instruction) (a : Address) : Nat :=
  if alignedMoves.contains i.mnemonic then a.bits.getD (vectorBits i) / 8
  else if !Text.startsWith "v" i.mnemonic && a.bits == some 128 &&
      !unalignedMoves.contains i.mnemonic then 16
  else 0

/-- The address is on the stack. -/
def Address.isStack (a : Address) : Bool :=
  match a.base.map (·.family) with
  | some r => r == .rsp || r == .rbp
  | none => false

/-- The value is a multiple of the alignment. -/
def isAligned (v : Int) (align : Nat) : Bool := v % (align : Int) == 0

/-- The stack pointer of a body is a multiple of the alignment wherever the frame base is. -/
def stackPointerAligned (f : SourceFunction) (align : Nat) : Bool :=
  if (align : Int) ≤ f.realign then isAligned f.locals align
  else f.realign == 0 && isAligned (f.locals + 8 * f.pushes) align

/-- An address on the stack is a multiple of the alignment wherever the frame base is. -/
def stackAddressAligned (f : SourceFunction) (a : Address) (align : Nat) : Bool :=
  a.index.isNone && isAligned a.disp align &&
    ((a.base.map (·.family)) != some .rsp || stackPointerAligned f align)

/-- The alignment of the frame base after one more address. -/
def noteAlignment (f : SourceFunction) (align : Int) (p : Instruction × Address) :
    Except Fault Int :=
  let (i, a) := p
  let required := requiredAlignment i a
  if !a.isStack || required = 0 then .ok align
  else if stackAddressAligned f a required then .ok (max align required)
  else
    .error (.defect
      { defect := .accessUnalignable required a.text f.locals, function := some f.name,
        line := i.line, construct := some i.text })

namespace SourceFunction

/-- The largest alignment that the body's accesses to the stack require, and at least 16. -/
def stackAlignment (f : SourceFunction) : Except Fault Int :=
  f.addresses.foldlM (noteAlignment f) 16

/-- The instruction pushes, pops, calls, or names the stack or the frame pointer. -/
def usesStack (i : Instruction) : Bool :=
  i.mnemonic == "push" || i.mnemonic == "pop" || i.isCall ||
    i.registers.any fun r => r.family == .rsp || r.family == .rbp

/-- The body needs a frame. -/
def needsFrame (f : SourceFunction) (spills callReserve : Nat) : Bool :=
  f.locals != 0 || spills != 0 || callReserve != 0 || f.realign != 0 ||
    f.instructions.any usesStack

/-- The frame of the body, given the slots of its arguments and the room that its calls need. Its
sizes must be such as can be written. -/
def planFrame (f : SourceFunction) (slots : List ArgSlot) (callReserve : Nat) :
    Except Fault FrameLayout := do
  if let some i := f.dynamic then
    throw (.defect
      { defect := .dynamicStack, function := some f.name, line := i.line, construct := some i.text })
  if f.locals % 8 != 0 then
    throw (.defect
      { defect := .localsUnaligned f.locals, function := some f.name, line := f.line,
        construct := some ("sub rsp, " ++ toString f.locals) })
  let spills := slots.countP (·.register?.isNone)
  let align ← f.stackAlignment
  let layout : FrameLayout := {
    locals := f.locals
    spills := spills
    pushes := f.instructions.countP fun i => i.mnemonic == "push"
    callReserve := callReserve
    align := max align f.realign
    realign := f.realign
    framed := f.needsFrame spills callReserve }
  if layout.isWritable then return layout else throw (.stop .numberUnwritable)

end SourceFunction

/-- The registers that may hold the address of the constant pool, best first. -/
def poolCandidates : List Register := [.rbx] ++ [12, 13, 14, 15, 11, 10].map (.gp .w64)

namespace SourceFunction

/-- The families of registers that an instruction names or uses without naming. -/
def families (i : Instruction) : Except Fault (List Register) := do
  let a ← Access.ofInstruction i
  return (i.registers ++ a.reads ++ a.writes).map (·.family)

/-- A register for the address of the constant pool that the body never uses. -/
def poolRegister (f : SourceFunction) : Except Fault Register := do
  let used ← f.instructions.mapM families
  match poolCandidates.find? fun r => !used.flatten.contains r with
  | some r => return r
  | none =>
    throw (.defect
      { defect := .noPoolRegister (poolCandidates.map (·.name)), function := some f.name,
        line := f.line, construct := some f.label })

end SourceFunction

end AsmBridge
