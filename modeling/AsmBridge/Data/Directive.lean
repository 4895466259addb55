import AsmBridge.Data.Literal
import AsmBridge.Record
import AsmBridge.Binary.Float

/-!
# Data directives

The directives that emit data, with the bytes that their arguments stand for, and the alignment
directives. Integers are reduced modulo the size of their cells.
-/

namespace AsmBridge

-- Powers of natural numbers are those of the core library.
attribute [local instance (high)] instPowNat

namespace Directive

/-- The cell size in bytes of an integer directive. -/
def integerBytes? (name : String) : Option Nat :=
  [(".byte", 1), (".short", 2), (".value", 2), (".word", 2), (".2byte", 2), (".hword", 2),
    (".long", 4), (".int", 4), (".4byte", 4), (".quad", 8), (".8byte", 8)].lookup name

/-- The format of a floating-point directive. -/
def floatFormat? (name : String) : Option FloatFormat :=
  [(".float", FloatFormat.single), (".single", .single), (".double", .double)].lookup name

/-- Whether a zero byte follows each literal of a string directive. -/
def terminated? (name : String) : Option Bool :=
  [(".ascii", false), (".asciz", true), (".string", true)].lookup name

/-- A directive that emits a number of equal bytes. -/
def isFill (name : String) : Bool := [".zero", ".space", ".skip"].contains name

/-- A directive of this name emits data. -/
def isDataName (name : String) : Bool :=
  (integerBytes? name).isSome || (floatFormat? name).isSome || (terminated? name).isSome ||
    isFill name

/-- A directive of this name asks for an alignment. -/
def isAlignmentName (name : String) : Bool :=
  [".p2align", ".align", ".balign", ".p2alignw", ".p2alignl"].contains name

/-- A literal of a sign, a zero and octal digits. -/
def isOctal (s : List Char) : Bool :=
  let body :=
    match s with
    | '-' :: rest => rest
    | s => s
  match body with
  | '0' :: ds => Text.someAll (fun c => (Text.digitIn? 8 c).isSome) ds
  | _ => false

/-- The error of an argument that cannot be read as an integer. -/
def integerError (arg : String) : Text.NumeralError → DataError
  | .malformed => .integer arg
  | .tooLong digits => .integerTooLong digits

/-- The value of an integer argument; with a leading zero it is octal. -/
def integerArgument (arg : String) : Except DataError Int :=
  let s := arg.toList
  (Text.integer (if isOctal s then .octal else .marked) s).mapError (integerError arg)

/-- The value of an argument of a filling directive. -/
def plainInteger (arg : String) : Except DataError Int :=
  (Text.integer .marked arg.toList).mapError (integerError arg)

/-- The bytes of a number in a floating-point format. -/
def floatBytes (f : FloatFormat) (arg : String) : Except DataError (List UInt8) :=
  match Text.decimal? arg.toList with
  | none => .error (.decimal arg)
  | some d =>
    let wide := FloatFormat.double.ofDecimal d
    if f = .double then .ok (littleEndian f.bytes wide)
    else
      match FloatFormat.convert? .double f wide with
      | some bits => .ok (littleEndian f.bytes bits)
      | none => .error (.stop .floatTooLarge)

/-- The bytes of a string argument. -/
def stringBytes (terminated : Bool) (arg : String) : Except DataError (List UInt8) :=
  let s := arg.toList
  if s.head? == some '"' && s.getLast? == some '"' then
    (Literal.bytes (s.drop 1).dropLast).map fun bs => if terminated then bs ++ [0] else bs
  else .error (.stringExpected arg)

/-- The bytes that the arguments give, in their order. -/
def concatBytes (bytes : String → Except DataError (List UInt8)) (args : List String) :
    Except DataError (List UInt8) :=
  (args.mapM bytes).map List.flatten

/-- So many equal bytes, none if the count is negative. -/
def fillBytes : List String → Except DataError (List UInt8)
  | [] => .error .argumentMissing
  | count :: rest => do
    let fill ← (rest.head?.map plainInteger).getD (.ok 0)
    let n ← plainInteger count
    let size ← (roomFor n).mapError DataError.stop
    return List.replicate size (UInt8.ofNat (wrapped 8 fill))

/-- The bytes that a directive emits. -/
def bytes (d : Directive) : Except DataError (List UInt8) :=
  match integerBytes? d.name, floatFormat? d.name, terminated? d.name with
  | some n, _, _ =>
    concatBytes (fun a => (integerArgument a).map fun v => littleEndian n (wrapped (8 * n) v)) d.argv
  | _, some f, _ => concatBytes (floatBytes f) d.argv
  | _, _, some terminated => concatBytes (stringBytes terminated) d.argv
  | _, _, _ => if isFill d.name then fillBytes d.argv else .error (.dataExpected d.name)

/-- The largest exponent of a power of two: numbers have at most `2 ^ 61 - 7` digits of 30 bits. -/
def exponentLimit : Nat := 30 * (2 ^ (61 : Nat) - 8)

/-- The alignment in bytes that an alignment directive asks for. The argument is a count of bytes
for `.balign`, and for `.align` unless the section is of the segmented kind; else it is a power of
two. -/
def alignment (d : Directive) : Except Stop Int :=
  match d.argv with
  | [] => .error .alignmentMissing
  | arg :: _ =>
    match Text.integer? .marked arg.toList with
    | none => .error .numberUnreadable
    | some n =>
      let inBytes := d.name == ".balign" ||
        (d.name == ".align" && (d.sect.map fun s => !Section.isSegmented s).getD false)
      if inBytes then .ok n
      else if n < 0 then .error .alignmentNegative
      else if n ≤ exponentLimit then .ok ((2 ^ n.toNat : Nat) : Int)
      else .error .alignmentTooLarge

/-- The entity size of the section that a directive selects: its fourth argument in a section with
contents, else what the name of the section tells. -/
def entitySize (d : Directive) : Except Stop Int :=
  let given :=
    match d.name, d.argv with
    | ".section", _ :: _ :: kind :: size :: _ =>
      if kind.toList.dropWhile (fun c => c == '@' || c == '%') == "progbits".toList then
        Text.integer? .marked size.toList
      else none
    | _, _ => none
  match given, Section.entitySize (d.sect.getD "") with
  | some n, _ => .ok n
  | none, .ok n => .ok n
  | none, .error _ => .error .numberUnreadable

end Directive

end AsmBridge
