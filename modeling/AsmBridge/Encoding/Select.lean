import AsmBridge.Encoding.Form
import AsmBridge.Encoding.Error
import AsmBridge.Binary.Word

/-!
# Choice of a form

Operands have shapes: a class and a width. The forms of an instruction are tried in their order,
and the first whose types all accept the operands is taken. An immediate that fits a field only
as an unsigned number makes a form second choice, taken when no form accepts the operands
outright.
-/

namespace AsmBridge

/-- The class and width of an operand. -/
inductive Shape
  | gp (bits : Nat)
  | xmm
  | ymm
  | mem (bits : Option Nat)
  /-- The least signed width, and whether a narrower unsigned width would do. -/
  | imm (bits : Nat) (narrower : Bool)
deriving DecidableEq, Repr

def Shape.text : Shape → String
  | .gp n => "r" ++ toString n
  | .xmm => "xmm"
  | .ymm => "ymm"
  | .mem none => "m"
  | .mem (some n) => "m" ++ toString n
  | .imm n narrower => "imm" ++ toString n ++ (if narrower then "u" else "")

/-- The least width of an immediate in bits that satisfies `p`. -/
def leastWidth? (p : Nat → Bool) : Option Nat :=
  (Width.all.map (·.bits)).find? p

/-- The shape of a number. -/
def immShape (v : Int) : Except EncodeError Shape :=
  match leastWidth? (fitsSigned · v) with
  | none => .error (if v < 0 && !Text.isWritable v then .immediateUnwritable else .immediateTooLarge v)
  | some bits =>
    let narrower :=
      match leastWidth? (fun b => 0 < v && fitsUnsigned b v) with
      | some u => u < bits
      | none => false
    .ok (.imm bits narrower)

/-- The shape of an operand; the instruction pointer and symbols have none. -/
def Operand.shape : Operand → Except EncodeError Shape
  | .reg .rip => .error .pointerRegister
  | .reg (.xmm _) => .ok .xmm
  | .reg (.ymm _) => .ok .ymm
  | .reg r => .ok (.gp r.bits)
  | .mem a => .ok (.mem a.bits)
  | .imm v => immShape v
  | .sym s => .error (.symbolic s)

/-- The shapes of an instruction's operands, in order. -/
def shapes (ops : List Operand) : Except EncodeError (List Shape) := ops.mapM Operand.shape

/-- The width in bits of the first operand that tells one. -/
def operationBits? (ops : List Operand) : Option Nat :=
  ops.findSome? fun
    | .reg r => some r.bits
    | .mem a => a.bits
    | _ => none

/-- Some operand is a vector register. -/
def anyVector (ops : List Operand) : Bool :=
  ops.any fun
    | .reg r => r.isVector
    | _ => false

/-- How well an operand suits a type. -/
inductive Fit
  | no
  /-- Only as an unsigned number. -/
  | unsigned
  | yes
deriving DecidableEq, Repr

def Fit.ofBool (b : Bool) : Fit := if b then .yes else .no

/-- A datum of the given width, or of unknown width, suits a memory type of so many bits. -/
def memSuits (want : Nat) : Option Nat → Bool
  | none => true
  | some n => n == 0 || n == want

/-- How well an operand of the given shape suits a type in an instruction whose operation width is
`opBits` and which has a vector operand if `vector`. -/
def OperandType.fit (opBits : Option Nat) (vector : Bool) (o : Operand) (s : Shape) :
    OperandType → Fit
  | .one => .ofBool (o == .imm 1)
  | .fixed r => .ofBool (o == .reg r)
  | .gp w => .ofBool (s == .gp w.bits)
  | .gpOrMem w =>
    match s with
    | .gp n => .ofBool (n == w.bits)
    | .mem bits => .ofBool (memSuits w.bits bits)
    | _ => .no
  | .gpOrNarrow w n =>
    match s with
    | .gp m => .ofBool (m == w.bits)
    | .mem bits => .ofBool (memSuits n bits)
    | _ => .no
  | .vector k _ =>
    match k, s with
    | .xmm, .xmm => .yes
    | .ymm, .ymm => .yes
    | _, _ => .no
  | .vectorOrMem k _ n =>
    match k, s with
    | .xmm, .xmm => .yes
    | .ymm, .ymm => .yes
    | _, .mem bits => .ofBool (memSuits n bits)
    | _, _ => .no
  | .mem want =>
    match want, s with
    | none, .mem _ => .yes
    | some n, .mem bits => .ofBool (memSuits n bits)
    | _, _ => .no
  | .imm w =>
    match s with
    | .imm bits narrower =>
      if bits ≤ w.bits then .yes
      else if narrower && bits / 2 ≤ w.bits && (opBits == some w.bits || vector) then .unsigned
      else .no
    | _ => .no

/-- How well operands suit a form: as well as the worst of them. -/
def Form.fit (f : Form) (ops : List Operand) (ss : List Shape) : Fit :=
  if f.types.length != ops.length || f.barred == some ops then .no
  else
    let fits := (f.types.zip (ops.zip ss)).map fun p =>
      p.1.fit (operationBits? ops) (anyVector ops) p.2.1 p.2.2
    if fits.contains .no then .no else if fits.contains .unsigned then .unsigned else .yes

/-- Judging the form for so many operands compares them with those that are barred. -/
def Form.compares (f : Form) (ops : List Operand) : Bool :=
  f.barred.isSome && f.types.length == ops.length

/-- The form for the operands: the first that suits them outright, else the first that suits them
at all. A form with barred operands compares them as they are written, so that each must have a
written form by then. -/
def selectForm (mnemonic : String) (forms : List Form) (ops : List Operand) :
    Except EncodeError Form := do
  let ss ← shapes ops
  let passed := forms.takeWhile fun f => f.fit ops ss != .yes
  if passed.any (·.compares ops) && ops.any (·.text?.isNone) then throw .unnamedWidth
  match forms.find? (fun f => f.fit ops ss == .yes) with
  | some f => return f
  | none =>
    match forms.find? (fun f => f.fit ops ss == .unsigned) with
    | some f => return f
    | none => throw (.noForm mnemonic (ss.map (·.text)))

end AsmBridge
