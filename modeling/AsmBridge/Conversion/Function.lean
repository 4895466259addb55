import AsmBridge.Abi.Bridge
import AsmBridge.Conversion.Options
import AsmBridge.Encoding.Encode
import AsmBridge.Function.Extract

/-!
# Conversion of a function

A function is converted by itself, once the constant pool of its unit is laid out: its signature,
its frame and the register for the pool are settled first, then come the lines before its body, and
then the body record by record. All defects of its records are reported.
-/

namespace AsmBridge

/-- What all functions of a unit share. -/
structure UnitContext where
  options : Options
  helpers : Helpers
  pool : Pool
deriving Repr

/-- A converted function. -/
structure ConvertedFunction where
  source : SourceFunction
  symbol : String
  signature : Signature
  layout : FrameLayout
  items : List Item
deriving Repr

/-- The instruction with its addresses relative to the instruction pointer moved to the pool. -/
def rebaseOperands (pool : Pool) (r : Register) (ops : List Operand) : Except Stop (List Operand) :=
  ops.mapM fun
    | .mem a => if a.ripRelative then (pool.rebase a r).map .mem else .ok (.mem a)
    | o => .ok o

/-- The result of converting one record: its items, or its defect. A fault ends the unit. -/
abbrev ItemsOrDefect := Except Diagnostic (List Item)

/-- A defect of a function at a line. -/
def functionDefect (f : SourceFunction) (line : Option Nat) (construct : String) (d : Defect) :
    Diagnostic :=
  { defect := d, function := some f.name, line := line, construct := some construct }

/-- The items in place of a data directive in a body: its bytes. -/
def convertData (f : SourceFunction) (d : Directive) : Except Stop ItemsOrDefect :=
  match d.bytes with
  | .ok bytes => .ok (.ok [.code bytes (some d.text)])
  | .error (.stop s) => .error s
  | .error e =>
    .ok (.error (functionDefect f d.line d.name (.notEmittable d.text e.reason)))

/-- The items in place of an instruction that is encoded. -/
def convertCode (c : UnitContext) (f : SourceFunction) (poolRegister : Option Register)
    (i : Instruction) : Except Fault ItemsOrDefect := do
  let ops ←
    match poolRegister with
    | some r => (rebaseOperands c.pool r i.operands).mapError Fault.stop
    | none => pure i.operands
  match encode i.mnemonic i.mark ops with
  | .ok bytes => return .ok [.code bytes (some i.text)]
  | .error e =>
    if e.isRefusal then
      return .error (functionDefect f i.line i.mnemonic (.notEncodable i.text e.message))
    else throw (.encoding e)

/-- The items in place of a call: behind it the register of the pool is loaded again, since a stub
may change it. -/
def convertCall (c : UnitContext) (f : SourceFunction) (poolRegister : Option Register)
    (i : Instruction) : Except Stop ItemsOrDefect := do
  match c.helpers.callLine f i with
  | .error d => return .error d
  | .ok call =>
    let anchor ← (poolRegister.mapM (loadPool c.pool.name) : Except Stop _)
    return .ok (.native call :: anchor.toList.map .native)

/-- The items in place of an instruction. -/
def convertInstruction (c : UnitContext) (f : SourceFunction) (poolRegister : Option Register)
    (i : Instruction) : Except Fault ItemsOrDefect :=
  match i.jumpName? with
  | some name =>
    .ok ((Helpers.jumpTarget f i).map fun target => [.native (.jump name (targetLabel target))])
  | none =>
    if i.isCall then (convertCall c f poolRegister i).mapError .stop
    else if Draft.clearsUpper i then .ok (.ok [.native (.bare i.mnemonic.toUpper)])
    else convertCode c f poolRegister i

/-- The items in place of a record of a body; `exit` are those in place of a return. -/
def convertRecord (c : UnitContext) (f : SourceFunction) (poolRegister : Option Register)
    (exit : List Item) : BodyItem → Except Fault ItemsOrDefect
  | .label l => .ok (.ok [.label l.name])
  | .directive d =>
    if Directive.isDataName d.name then (convertData f d).mapError .stop
    else .ok (.ok [.directive d])
  | .instruction i => convertInstruction c f poolRegister i
  | .epilogue _ => .ok (.ok exit)

/-- The line of a record of a body. -/
def BodyItem.line : BodyItem → Option Nat
  | .label l => l.line
  | .directive d => d.line
  | .instruction i => i.line
  | .epilogue e => e.line

/-- The defects of records, located, and the items of the others. -/
def collect (f : SourceFunction) : List (BodyItem × ItemsOrDefect) → List Diagnostic × List Item
  | [] => ([], [])
  | (b, r) :: rest =>
    let (ds, items) := collect f rest
    match r with
    | .ok more => (ds, more ++ items)
    | .error d => (d.located (some f.name) b.line :: ds, items)

/-- The signature, frame and pool register of a function. -/
structure FunctionPlan where
  signature : Signature
  slots : List ArgSlot
  layout : FrameLayout
  poolRegister : Option Register
deriving Repr

/-- The plan of a function. -/
def planFunction (c : UnitContext) (f : SourceFunction) : Except Fault FunctionPlan := do
  let signature ← f.resolveSignature (c.options.symbol f) c.options.prototypes
  let slots := assignArguments signature
  let callReserve ← (c.helpers.reserve f).mapError Fault.defect
  let layout ← f.planFrame slots callReserve
  let poolRegister ← if f.references.isEmpty then pure none else (f.poolRegister).map some
  return { signature, slots, layout, poolRegister }

/-- The conversion of a body by its plan, or the defects of its records. -/
def convertBody (c : UnitContext) (f : SourceFunction) (p : FunctionPlan) :
    Except Fault (Except (List Diagnostic) ConvertedFunction) := do
  let entry ← (preamble p.slots p.layout c.pool.name p.poolRegister).mapError Fault.stop
  let exit ←
    if f.returns = 0 then pure [] else (epilogue p.signature p.layout).mapError Fault.stop
  let results ← f.body.mapM (convertRecord c f p.poolRegister (exit.map .native))
  let (ds, items) := collect f (f.body.zip results)
  if ds.isEmpty then
    return .ok
      { source := f
        symbol := c.options.symbol f
        signature := p.signature
        layout := p.layout
        items := entry.map .native ++ items }
  else return .error ds

/-- The problems found when the instructions of a function were read. -/
def problems (f : SourceFunction) : List Diagnostic :=
  f.instructions.filterMap fun i => i.problem.map fun d => d.located (some f.name) i.line

/-- The conversion of a function, or its defects. -/
def convertFunction (c : UnitContext) (f : SourceFunction) :
    Except Fault (Except (List Diagnostic) ConvertedFunction) :=
  let found := problems f
  if !found.isEmpty then .ok (.error found)
  else
    match planFunction c f with
    | .ok p => convertBody c f p
    | .error (.defect d) => .ok (.error [d.located (some f.name) none])
    | .error e => .error e

end AsmBridge
