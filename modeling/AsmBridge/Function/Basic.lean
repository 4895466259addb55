import AsmBridge.Record
import AsmBridge.Fault

/-!
# Functions of a unit

A function is its label and its body: the records between the frame-pointer prologue and the end of
the function, with each teardown and return replaced by an epilogue. What the body does to the stack
pointer is recorded beside it.
-/

namespace AsmBridge

/-- A return point, in place of the teardown and the return instruction. -/
structure Epilogue where
  line : Option Nat := none
deriving DecidableEq, Repr

/-- A record of a function's body. -/
inductive BodyItem
  | label (l : Label)
  | directive (d : Directive)
  | instruction (i : Instruction)
  | epilogue (e : Epilogue)
deriving DecidableEq, Repr

namespace BodyItem

def instruction? : BodyItem → Option Instruction
  | .instruction i => some i
  | _ => none

def label? : BodyItem → Option Label
  | .label l => some l
  | _ => none

def isEpilogue : BodyItem → Bool
  | .epilogue _ => true
  | _ => false

end BodyItem

/-- A function of a unit. -/
structure SourceFunction where
  label : String
  line : Option Nat := none
  sect : Option String := none
  body : List BodyItem := []
  /-- The sum of all constant amounts by which the body lowers the stack pointer. -/
  locals : Nat := 0
  /-- The alignment that the set-up gives the stack pointer, zero if none. -/
  realign : Nat := 0
  /-- The registers pushed in the set-up. -/
  pushes : Nat := 0
  /-- The first instruction that moves the stack pointer by an amount known only at run time. -/
  dynamic : Option Instruction := none
deriving DecidableEq, Repr

namespace SourceFunction

/-- The function comes from a unit with segmented sections. -/
def isSegmented (f : SourceFunction) : Bool := (f.sect.map Section.isSegmented).getD false

/-- The name without the underscore that segmented units put before it. -/
def name (f : SourceFunction) : String :=
  if f.isSegmented && Text.startsWith "_" f.label then Text.dropChars 1 f.label else f.label

/-- The instructions of the body, in order. -/
def instructions (f : SourceFunction) : List Instruction := f.body.filterMap (·.instruction?)

/-- The labels of the body, in order. -/
def labels (f : SourceFunction) : List String := f.body.filterMap fun b => b.label?.map (·.name)

/-- The number of return points. -/
def returns (f : SourceFunction) : Nat := f.body.countP (·.isEpilogue)

/-- The symbols of the data that the body refers to relative to the instruction pointer, in the
order of their first use. -/
def references (f : SourceFunction) : List (Option String) :=
  ((f.instructions.flatMap (·.addresses)).filter (·.ripRelative)).map (·.symbol) |>.eraseDups

end SourceFunction

end AsmBridge
