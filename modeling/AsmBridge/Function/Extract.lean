import AsmBridge.Function.Basic

/-!
# Finding the functions of a unit

The records of a unit are read from left to right. A function label begins a function, whose first
two instructions must set up the frame pointer; it ends at its size directive, at an end label, at
another function label or where the section changes. It must not fall through its end, and each of
its returns must follow a teardown of the frame.
-/

namespace AsmBridge

/-- Where a function stands. -/
inductive Phase
  /-- Before the first instruction. -/
  | fresh
  /-- After `push rbp`. -/
  | pushed
  /-- In the body, with control running on. -/
  | running
  /-- In the body, behind an instruction that control does not run past. -/
  | ended
deriving DecidableEq, Repr

/-- A function that is being read. The body is kept last first. -/
structure Draft where
  function : SourceFunction
  phase : Phase := .fresh
  /-- The set-up of the frame may still go on. -/
  inSetup : Bool := true
deriving Repr

/-- How far a unit is divided into functions. -/
structure ExtractState where
  /-- The finished functions, last first. -/
  done : List SourceFunction := []
  draft : Option Draft := none
deriving Repr

namespace Draft

/-- The function of a label. -/
def begin (l : Label) : Draft :=
  { function := { label := l.name, line := l.line, sect := l.sect } }

/-- The draft with one more record of its body. -/
def push (d : Draft) (b : BodyItem) : Draft :=
  { d with function := { d.function with body := b :: d.function.body } }

/-- A structural defect of the function. -/
def fault (d : Draft) (defect : Defect) (line : Option Nat) (construct : String) : Fault :=
  .defect { defect := defect, function := some d.function.label, line := line,
            construct := some construct }

/-- The record ends the function. -/
def isEnd (d : Draft) : Record → Bool
  | .label l => l.isFunctionEnd
  | .directive r =>
    (r.name == ".size" && r.argv.head? == some d.function.label) ||
      !((r.sect.map Section.isText).getD false)
  | .instruction _ => false

/-- The function, if it may end before `boundary`. -/
def finish (d : Draft) (boundary : Boundary) : Except Fault SourceFunction :=
  let f := d.function
  if d.phase = .running then
    let defect : Defect :=
      if f.returns = 0 then .returnMissing f.label boundary else .fallsThrough f.label boundary
    .error (d.fault defect f.line f.label)
  else if !Text.isWritable f.locals then .error (.stop .numberUnwritable)
  else .ok { f with body := f.body.reverse }

/-- The amount by which an instruction lowers the stack pointer. -/
inductive StackStep
  | none
  | constant (n : Int)
  /-- By a register, a datum or a symbol. -/
  | unknown

/-- What an addition to or subtraction from the stack pointer does to it. -/
def stackStep (i : Instruction) : StackStep :=
  if i.mnemonic == "sub" || i.mnemonic == "add" then
    match i.operands with
    | [.reg r, amount] =>
      if r = .rsp then
        match amount with
        | .imm v => .constant (if i.mnemonic == "sub" then v else -v)
        | _ => .unknown
      else .none
    | _ => .none
  else .none

/-- What the instruction contributes to the set-up while that goes on. -/
def scanSetup (d : Draft) (i : Instruction) : Except Fault Draft :=
  let f := d.function
  if !d.inSetup then .ok d
  else if i.mnemonic == "push" then .ok { d with function := { f with pushes := f.pushes + 1 } }
  else if i.mnemonic == "and" then
    match i.operands with
    | [.reg r, .imm v] =>
      if r = .rsp ∧ v < 0 then
        .ok { d with function := { f with realign := max f.realign (-v).toNat } }
      else .ok { d with inSetup := false }
    | [.reg r, .sym _] =>
      if r = .rsp then .error (.stop .maskSymbolic) else .ok { d with inSetup := false }
    | _ => .ok { d with inSetup := false }
  else .ok { d with inSetup := false }

/-- What the instruction does to the stack pointer, noted. -/
def scan (d : Draft) (i : Instruction) : Except Fault Draft :=
  let f := d.function
  match stackStep i with
  | .constant n => .ok { d with function := { f with locals := f.locals + n.toNat } }
  | .unknown =>
    .ok { d with function := { f with dynamic := f.dynamic.or (some i) } }
  | .none => scanSetup d i

/-- The body, last first, without a `mov rsp, rbp` that is its last instruction. -/
def withoutMove : List BodyItem → List BodyItem
  | [] => []
  | .instruction i :: rest =>
    if i.isExactly "mov" [.reg .rsp, .reg .rbp] then rest else .instruction i :: rest
  | b :: rest => b :: withoutMove rest

/-- The instruction clears the upper halves of the vector registers, which is allowed between a
teardown and its return. -/
def clearsUpper (i : Instruction) : Bool :=
  i.mnemonic == "vzeroupper" || i.mnemonic == "vzeroall"

/-- The body, last first, without the teardown at its end. -/
def withoutTeardown? : List BodyItem → Option (List BodyItem)
  | [] => none
  | .instruction i :: rest =>
    if clearsUpper i then (withoutTeardown? rest).map (.instruction i :: ·)
    else if i.isExactly "leave" [] then some rest
    else if i.isExactly "pop" [.reg .rbp] then some (withoutMove rest)
    else none
  | b :: rest => (withoutTeardown? rest).map (b :: ·)

/-- The draft with a return in place of its last teardown. -/
def close (d : Draft) (i : Instruction) : Except Fault Draft :=
  match withoutTeardown? d.function.body with
  | some body =>
    .ok { d with
      function := { d.function with body := .epilogue { line := i.line } :: body }
      phase := .ended }
  | none => .error (d.fault (.teardownMissing d.function.label) i.line "ret")

/-- The instruction never lets control run on. -/
def isTerminator (i : Instruction) : Bool := ["ret", "jmp", "ud2"].contains i.mnemonic

/-- An instruction of the body. -/
def instruction (d : Draft) (i : Instruction) : Except Fault Draft := do
  let d ← d.scan i
  if i.isRet then d.close i
  else
    return { d.push (.instruction i) with phase := if isTerminator i then .ended else .running }

/-- An instruction before the body: the two of the prologue, which a branch-target mark may
precede. -/
def prologue (d : Draft) (i : Instruction) : Except Fault Draft :=
  if d.phase = .fresh ∧ i.mnemonic = "endbr64" then .ok d
  else if d.phase = .fresh ∧ i.isExactly "push" [.reg .rbp] then .ok { d with phase := .pushed }
  else if d.phase = .pushed ∧ i.isExactly "mov" [.reg .rbp, .reg .rsp] then
    .ok { d with phase := .running }
  else .error (d.fault (.prologueMissing d.function.label) i.line i.text)

/-- The prologue is not complete. -/
def inPrologue (d : Draft) : Bool := d.phase = .fresh || d.phase = .pushed

/-- A record that belongs to the function. -/
def record (d : Draft) : Record → Except Fault Draft
  | .instruction i => if d.inPrologue then d.prologue i else d.instruction i
  | .label l =>
    let d := d.push (.label l)
    .ok (if d.phase = .ended then { d with phase := .running } else d)
  | .directive r => .ok (d.push (.directive r))

end Draft

/-- The line of a record. -/
def Record.line : Record → Option Nat
  | .label l => l.line
  | .directive d => d.line
  | .instruction i => i.line

namespace ExtractState

/-- A record outside of any function. -/
def outside (s : ExtractState) : Record → Except Fault ExtractState
  | .label l => .ok (if l.isFunction then { s with draft := some (.begin l) } else s)
  | .directive _ => .ok s
  | .instruction i =>
    .error (.defect
      { defect := .strayInstruction i.text, line := i.line, construct := some i.mnemonic })

/-- A record that ends the function being read; if it is a function label it begins the next
one. -/
def endDraft (s : ExtractState) (d : Draft) (r : Record) : Except Fault ExtractState :=
  if d.inPrologue then
    .error (d.fault (.bodyMissing d.function.label) r.line d.function.label)
  else do
    let f ← d.finish (.line (r.line.getD 0))
    let next :=
      match r with
      | .label l => if l.isFunction then some (Draft.begin l) else none
      | _ => none
    return { done := f :: s.done, draft := next }

/-- One record more. -/
def step (s : ExtractState) (r : Record) : Except Fault ExtractState :=
  match s.draft with
  | none => s.outside r
  | some d =>
    if d.isEnd r then s.endDraft d r
    else (d.record r).map fun d => { s with draft := some d }

/-- The functions, when the unit is at its end. -/
def finish (s : ExtractState) : Except Fault (List SourceFunction) :=
  match s.draft with
  | none => .ok s.done.reverse
  | some d =>
    if d.inPrologue then
      .error (d.fault (.prologueUnfinished d.function.label) d.function.line d.function.label)
    else (d.finish .endOfInput).map fun f => (f :: s.done).reverse

end ExtractState

/-- The functions of a unit, in order. -/
def extractFunctions (records : List Record) : Except Fault (List SourceFunction) := do
  (← records.foldlM ExtractState.step {}).finish

end AsmBridge
