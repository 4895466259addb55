import AsmBridge.Abi.Frame
import AsmBridge.Target.Instruction

/-!
# Entering and leaving a body

The lines before a body move the caller's arguments into the registers and words where the body
expects them, and build the frame: its aligned base holds the caller's stack pointer and becomes
both frame and stack pointer. The lines in place of each return undo the frame and store the
result.
-/

namespace AsmBridge

/-- The move of an argument into its register. -/
def loadArgument? (s : ArgSlot) : Option TargetInstruction :=
  s.register?.map fun r =>
    let source := TargetOperand.arg s.argument.name s.offset
    if r.isVector then .movsd source (.reg r) else .movq source (.reg r)

/-- The moves of a spilled argument to its word above the frame base. -/
def spillArgument (s : ArgSlot) : List TargetInstruction :=
  match s.spill? with
  | some n => [
    .movq (.arg s.argument.name s.offset) (.reg .rax),
    .movq (.reg .rax) (.at .rbp (16 + 8 * n))]
  | none => []

/-- The set-up of the frame. -/
def frameLines (slots : List ArgSlot) (l : FrameLayout) : List TargetInstruction :=
  [.movq (.reg .rsp) (.reg .rbp), .addq l.baseOffset .rbp, .andq l.align .rbp,
    .movq (.reg .rsp) (.at .rbp 0)] ++
  slots.flatMap spillArgument ++ [.movq (.reg .rbp) (.reg .rsp)]

/-- The load of the address of the constant pool. -/
def loadPool (poolName : String) (r : Register) : Except Stop TargetInstruction :=
  if r.targetName?.isSome then .ok (.leaq poolName r) else .error (.unnamedRegister r)

/-- The lines before a body. -/
def preamble (slots : List ArgSlot) (l : FrameLayout) (poolName : String)
    (poolRegister : Option Register) : Except Stop (List TargetInstruction) := do
  if !l.framed && slots.any (·.register?.isNone) then throw .spillsUnframed
  if l.framed && l.align == 0 then throw .alignmentZero
  let anchor ← (poolRegister.mapM (loadPool poolName) : Except Stop _)
  return slots.filterMap loadArgument? ++ (if l.framed then frameLines slots l else []) ++
    anchor.toList

/-- The store of a result of the given shape. -/
def storeResult (shape : ResultShape) (dest : TargetOperand) : TargetInstruction :=
  match shape with
  | .integer => .movq (.reg .rax) dest
  | .float => .movsd (.reg (.xmm 0)) dest
  | .vector128 => .movups (.reg (.xmm 0)) dest
  | .vector256 => .vmovdqu (.reg (.ymm 0)) dest

/-- The lines in place of a return. -/
def epilogue (s : Signature) (l : FrameLayout) : Except Stop (List TargetInstruction) := do
  let store ←
    match s.result with
    | none => pure []
    | some r =>
      match ← s.resultShape with
      | some shape => pure [storeResult shape (.arg r.name s.resultOffset)]
      | none => throw .resultShapeless
  return (if l.framed then [.movq (.at .rbp 0) (.reg .rsp)] else []) ++ store ++ [.ret]

end AsmBridge
