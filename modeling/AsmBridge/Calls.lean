import AsmBridge.Function.Basic
import AsmBridge.Target.Instruction

/-!
# Calls and jumps

A body may call only helpers on a list, for each of which a stub exists in the target dialect, and
may jump only to its own labels.
-/

namespace AsmBridge

/-- A function that bodies may call. -/
structure Helper where
  name : String
  /-- The symbol of its stub. -/
  stub : String
  /-- The number of register arguments it reads. -/
  args : Int
  /-- The bytes below the stack pointer that a call needs. -/
  reserve : Int
deriving DecidableEq, Repr

namespace Helper

/-- The arguments that a helper reads unless it says otherwise. -/
def standardArgs : Int := 3

/-- The bytes that a call needs unless the helper says otherwise: a return address and the frame of
the stub. -/
def standardReserve : Int := 32

/-- A helper; without a stub of its own it has that of its name behind an underscore. -/
def withStub (name : String) (stub : Option String) (args reserve : Int) : Helper :=
  { name := name
    stub := ((stub.filter (!·.isEmpty))).getD ("_" ++ name)
    args := args
    reserve := reserve }

/-- The helper that only a name is given of. -/
def ofName (name : String) : Helper := withStub name none standardArgs standardReserve

end Helper

/-- The helpers of a unit and the package that holds their stubs. -/
structure Helpers where
  allowed : List Helper := []
  package : String := ""
deriving DecidableEq, Repr

/-- A call with the helper that it names. -/
structure CallSite where
  target : String
  helper : Helper
deriving DecidableEq, Repr

/-- The name of a call target: without what follows an `@`, and in segmented units without an
underscore before it. -/
def targetName (symbol : String) (segmented : Bool) : String :=
  let name := String.ofList (Text.cutAt '@' symbol.toList).1
  if segmented && Text.startsWith "_" name then Text.dropChars 1 name else name

namespace Helpers

/-- The helpers that are allowed unless a unit says otherwise. -/
def standard : List Helper := ["memcpy", "memset", "memmove"].map Helper.ofName

/-- The list with a helper, which takes the place of an older one of its name. -/
def insertInto (h : Helper) : List Helper → List Helper
  | [] => [h]
  | g :: rest => if g.name == h.name then h :: rest else g :: insertInto h rest

/-- The helpers of a list, the standard ones if there is no list. -/
def ofList (allowed : Option (List Helper)) (package : String) : Helpers :=
  ⟨(allowed.getD standard).foldl (fun hs h => insertInto h hs) [], package⟩

/-- The helper of a name. -/
def find? (hs : Helpers) (name : String) : Option Helper := hs.allowed.find? (·.name == name)

/-- A defect in a call or a jump of a function. -/
def fault (f : SourceFunction) (i : Instruction) (construct : String) (d : Defect) : Diagnostic :=
  { defect := d, function := some f.name, line := i.line, construct := some construct }

/-- The helper that a call names. -/
def resolve (hs : Helpers) (f : SourceFunction) (i : Instruction) :
    Except Diagnostic CallSite :=
  match i.target? with
  | none => .error (fault f i i.text (.indirectCall i.text))
  | some symbol =>
    let name := targetName symbol f.isSegmented
    match hs.find? name with
    | some h => .ok ⟨name, h⟩
    | none => .error (fault f i symbol (.callNotAllowed symbol (hs.allowed.map (·.name))))

/-- The call in the target dialect. -/
def callLine (hs : Helpers) (f : SourceFunction) (i : Instruction) :
    Except Diagnostic TargetInstruction :=
  (hs.resolve f i).map fun site => .call hs.package site.helper.stub

/-- The label that a jump names, which must be one of its function. -/
def jumpTarget (f : SourceFunction) (i : Instruction) : Except Diagnostic String :=
  match i.target? with
  | none => .error (fault f i i.text (.indirectJump i.text))
  | some target =>
    if f.labels.contains target then .ok target
    else .error (fault f i target (.jumpLeaves target f.name))

/-- The bytes below the stack pointer that the calls of a function need. -/
def reserve (hs : Helpers) (f : SourceFunction) : Except Diagnostic Nat :=
  (f.instructions.filter (·.isCall)).foldlM
    (fun n i => (hs.resolve f i).map fun site => max n site.helper.reserve.toNat) 0

end Helpers

end AsmBridge
