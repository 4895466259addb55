import AsmBridge.Fault
import AsmBridge.Text.Numeral

/-!
# Signatures

The arguments and the result of a function as a Go declaration gives them. An argument takes one
slot of eight bytes and is passed in an integer or in a vector register; the one result comes back
in a register.
-/

namespace AsmBridge

/-- The two classes of argument registers. -/
inductive ArgClass
  | integer
  | float
deriving DecidableEq, Repr

/-- A named argument or result with its Go type. -/
structure Argument where
  name : String
  kind : String
deriving DecidableEq, Repr

/-- The class of a Go type, if it is passed in a register of 64 bits. -/
def argClass? (kind : String) : Option ArgClass :=
  if Text.startsWith "*" kind then some .integer
  else if ["int", "int64", "uint", "uint64", "uintptr", "unsafe.Pointer"].contains kind then
    some .integer
  else if kind == "float64" then some .float
  else none

def Argument.class? (a : Argument) : Option ArgClass := argClass? a.kind

/-- The size in bytes of an element of a fixed-size array. -/
def elementBytes? (kind : String) : Option Nat :=
  [("byte", 1), ("int8", 1), ("uint8", 1), ("int16", 2), ("uint16", 2), ("int32", 4), ("uint32", 4),
    ("float32", 4), ("int64", 8), ("uint64", 8), ("float64", 8)].lookup kind

/-- The digits of the length and the size of an element of a fixed-size array type such as
`[4]float64`. -/
def arrayParts? (kind : String) : Option (List Char × Nat) :=
  match kind.toList with
  | '[' :: rest =>
    match Text.cutAt ']' rest with
    | (digits, some elem) =>
      let elem := if elem.getLast? == some '\n' then elem.dropLast else elem
      if Text.someAll (fun c => (Text.digit? c).isSome) digits then
        (elementBytes? (String.ofList elem)).map fun n => (digits, n)
      else none
    | _ => none
  | _ => none

/-- The size in bytes of a type, if it is a fixed-size array. -/
def arrayBytes (kind : String) : Except Text.NumeralError (Option Nat) :=
  match arrayParts? kind with
  | some (digits, n) => (Text.plainDecimal digits).map fun length => some (length * n)
  | none => .ok none

/-- How a result comes back. -/
inductive ResultShape
  | integer
  | float
  /-- A vector of 128 bits. -/
  | vector128
  /-- A vector of 256 bits. -/
  | vector256
deriving DecidableEq, Repr

namespace ResultShape

/-- The size in bytes. -/
def bytes : ResultShape → Nat
  | .integer => 8
  | .float => 8
  | .vector128 => 16
  | .vector256 => 32

def text : ResultShape → String
  | .integer => "int"
  | .float => "float64"
  | .vector128 => "m128"
  | .vector256 => "m256"

/-- The shape of a Go type, if a result can have it. The length of an array must be readable. -/
def ofKind (kind : String) : Except Stop (Option ResultShape) :=
  if argClass? kind = some .integer then .ok (some .integer)
  else if kind == "float64" then .ok (some .float)
  else
    match arrayBytes kind with
    | .ok (some 16) => .ok (some .vector128)
    | .ok (some 32) => .ok (some .vector256)
    | .ok _ => .ok none
    | .error _ => .error .numberUnreadable

end ResultShape

/-- The arguments and the result of a function. -/
structure Signature where
  name : String
  args : List Argument := []
  result : Option Argument := none
  /-- It was derived from the body of the function, not declared. -/
  discovered : Bool := false
deriving DecidableEq, Repr

namespace Signature

/-- The signature of a function that takes so many integer, vector and stack arguments, in this
order. -/
def discover (name : String) (integers floats stack : Int) : Signature :=
  { name := name
    args := (List.range (integers + floats + stack).toNat).map fun (i : Nat) =>
      { name := "arg" ++ toString (i + 1)
        kind := if integers ≤ i && i < integers + floats then "float64" else "unsafe.Pointer" }
    discovered := true }

/-- The offset of the result behind the arguments. -/
def resultOffset (s : Signature) : Nat := 8 * s.args.length

/-- The shape of the result. -/
def resultShape (s : Signature) : Except Stop (Option ResultShape) :=
  match s.result with
  | some r => ResultShape.ofKind r.kind
  | none => .ok none

/-- The shape of the result, if it has one and the length of its type can be read. -/
def resultShape? (s : Signature) : Option ResultShape := s.resultShape.toOption.join

/-- The size of the argument area: eight bytes for each argument, and the result. -/
def argBytes (s : Signature) : Nat :=
  8 * s.args.length + (s.resultShape?.map (·.bytes)).getD 0

/-- What is wrong with an argument. -/
def argumentDefect? (s : Signature) (a : Argument) : Option Diagnostic :=
  if a.class?.isNone then
    some { defect := .argumentKind a.name s.name a.kind, function := some s.name,
           construct := some a.kind }
  else none

/-- What is wrong with a result without a shape. -/
def resultDefect (s : Signature) (r : Argument) : Diagnostic :=
  { defect := .resultKind s.name r.kind, function := some s.name, construct := some r.kind }

/-- The signature, if all its types can be passed in registers. -/
def validate (s : Signature) : Except Fault Signature :=
  match s.args.findSome? s.argumentDefect?, s.result with
  | some d, _ => .error (.defect d)
  | none, none => .ok s
  | none, some r =>
    match ResultShape.ofKind r.kind with
    | .ok (some _) => .ok s
    | .ok none => .error (.defect (s.resultDefect r))
    | .error e => .error (.stop e)

/-- The parameters and the result of a declaration. -/
def tailText (s : Signature) : String :=
  Text.commaList (s.args.map fun a => a.name ++ " " ++ a.kind) ++ ")" ++
    ((s.result.map fun r => " (" ++ r.name ++ " " ++ r.kind ++ ")").getD "")

/-- The declaration under a given name. -/
def declarationAs (s : Signature) (name : String) : String := "func " ++ name ++ "(" ++ s.tailText

/-- The declaration in Go. -/
def declaration (s : Signature) : String := s.declarationAs s.name

end Signature

end AsmBridge
