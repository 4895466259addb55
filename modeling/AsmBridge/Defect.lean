import AsmBridge.Operand
import AsmBridge.Text.Numeral

/-!
# Defects of an assembly unit

What can be wrong with a unit so that it is not converted, with the kind of each defect and its
wording. A defect becomes a diagnostic by the function and the line it is found at and by the piece
of source that shows it.
-/

namespace AsmBridge

/-- The kinds of defects. The first two leave a unit unusable as a whole. -/
inductive DefectKind
  | parse
  | structural
  | instruction
  | call
  | argumentSize
  | missingData
  | alignment
  | registerAllocation
deriving DecidableEq, Repr

/-- The name of a kind in diagnostics. -/
def DefectKind.name : DefectKind → String
  | .parse => "ParseError"
  | .structural => "StructuralError"
  | .instruction => "UnsupportedInstructionError"
  | .call => "UnsupportedCallError"
  | .argumentSize => "ArgumentSizeError"
  | .missingData => "MissingConstantDataError"
  | .alignment => "AlignmentError"
  | .registerAllocation => "RegisterAllocationError"

/-- Where a function without a proper end was given up: at a line or at the end of the unit. -/
inductive Boundary
  | line (n : Nat)
  | endOfInput
deriving DecidableEq, Repr

def Boundary.text : Boundary → String
  | .line n => "line " ++ toString n
  | .endOfInput => "end of input"

/-- What can be wrong with a unit. -/
inductive Defect
  | popWithoutPush
  | unknownDirective (name sect : String)
  | sectionNameMissing
  | mnemonicExpected (line : String)
  | mnemonicExpectedAfterMark (line : String)
  | emptyOperand (operands : String)
  | absoluteAddress (operand : String)
  | segmentOverride (operand : String)
  | sizeWithoutMemory (operand : String)
  | ripAsOperand
  | operandUnreadable (operand : String)
  | addressUnreadable (operand : String)
  | scaledIndexUnreadable (term : String)
  | indexInvalid (operand : String)
  | registerSubtracted (operand : String)
  | tooManyRegisters (operand : String)
  | symbolExpression (operand : String)
  | absoluteReference (symbol : String)
  | ripIndexedOperand (operand : String)
  | narrowAddressing (operand : String)
  | scaleInvalid (factor : Int)
  | instructionInData (sect : String)
  | untypedParameters (function : String) (names : List String)
  | strayInstruction (text : String)
  | prologueMissing (function : String)
  | bodyMissing (function : String)
  | prologueUnfinished (function : String)
  | returnMissing (function : String) (before : Boundary)
  | fallsThrough (function : String) (past : Boundary)
  | teardownMissing (function : String)
  | vectorIndexed (operand : String)
  | dynamicStack
  | notEmittable (directive reason : String)
  | notEncodable (instruction reason : String)
  | indirectCall (instruction : String)
  | callNotAllowed (symbol : String) (allowed : List String)
  | indirectJump (instruction : String)
  | jumpLeaves (target function : String)
  | argumentKind (argument function kind : String)
  | resultKind (function kind : String)
  | manyResults (function : String) (count : Nat)
  | narrowStackArgument (address : String)
  | narrowArgument (register shown : String)
  | singleArgument (register : String)
  | notReadOnly (symbol : String)
  | dataMissing (symbol : String)
  | dataUndecodable (symbol reason : String)
  | dataEmpty (symbol : String)
  | accessUnalignable (bytes : Nat) (address : String) (locals : Int)
  | localsUnaligned (locals : Int)
  | noPoolRegister (candidates : List String)
deriving DecidableEq, Repr

namespace Defect

/-- The kind of a defect. -/
def kind : Defect → DefectKind
  | .popWithoutPush | .unknownDirective .. | .sectionNameMissing | .mnemonicExpected _
  | .mnemonicExpectedAfterMark _ | .emptyOperand _ | .absoluteAddress _ | .segmentOverride _
  | .sizeWithoutMemory _ | .ripAsOperand | .operandUnreadable _ | .addressUnreadable _
  | .scaledIndexUnreadable _ | .indexInvalid _ | .registerSubtracted _ | .tooManyRegisters _
  | .symbolExpression _ | .absoluteReference _ | .ripIndexedOperand _ | .narrowAddressing _
  | .scaleInvalid _ | .instructionInData _ | .untypedParameters .. => .parse
  | .strayInstruction _ | .prologueMissing _ | .bodyMissing _ | .prologueUnfinished _
  | .returnMissing .. | .fallsThrough .. | .teardownMissing _ => .structural
  | .vectorIndexed _ | .dynamicStack | .notEmittable .. | .notEncodable .. => .instruction
  | .indirectCall _ | .callNotAllowed .. | .indirectJump _ | .jumpLeaves .. => .call
  | .argumentKind .. | .resultKind .. | .manyResults .. | .narrowStackArgument _
  | .narrowArgument .. | .singleArgument _ => .argumentSize
  | .notReadOnly _ | .dataMissing _ | .dataUndecodable .. | .dataEmpty _ => .missingData
  | .accessUnalignable .. | .localsUnaligned _ => .alignment
  | .noPoolRegister _ => .registerAllocation

/-- The wording for a scale that is none, or for a number too long to be shown as one. -/
def scaleText (factor : Int) : String :=
  if Text.isWritable factor then
    "Scale must be 1, 2, 4, or 8 (got " ++ toString factor ++ ")."
  else Text.unwritableText

/-- The wording for parameters that no type follows. -/
def untypedText (names : List String) : String :=
  "Parameters without type: " ++ Text.commaList names

/-- The wording of a defect. -/
def message : Defect → String
  | .popWithoutPush => ".popsection without .pushsection"
  | .unknownDirective name sect =>
    "Unknown directive " ++ name ++ " in text section " ++ sect
  | .sectionNameMissing => "Missing section name"
  | .mnemonicExpected line => "Expected instruction mnemonic: \"" ++ line ++ "\""
  | .mnemonicExpectedAfterMark line =>
    "Expected instruction mnemonic after prefix: \"" ++ line ++ "\""
  | .emptyOperand ops => "Empty operand in \"" ++ ops ++ "\""
  | .absoluteAddress op => "Absolute address \"" ++ op ++ "\" in position-independent code"
  | .segmentOverride op => "Segment override is not supported: \"" ++ op ++ "\""
  | .sizeWithoutMemory op => "Size hint without memory operand: \"" ++ op ++ "\""
  | .ripAsOperand => "rip can only be used to address memory"
  | .operandUnreadable op => "Cannot parse operand \"" ++ op ++ "\""
  | .addressUnreadable op => "Cannot parse memory operand \"" ++ op ++ "\""
  | .scaledIndexUnreadable term => "Cannot parse scaled index \"" ++ term ++ "\""
  | .indexInvalid op => "Invalid index in \"" ++ op ++ "\""
  | .registerSubtracted op => "Cannot subtract register in \"" ++ op ++ "\""
  | .tooManyRegisters op => "Too many registers in \"" ++ op ++ "\""
  | .symbolExpression op => "Cannot parse symbol expression in \"" ++ op ++ "\""
  | .absoluteReference symbol =>
    "Absolute reference to \"" ++ symbol ++ "\"; input must be position-independent"
  | .ripIndexedOperand op => "Cannot index a rip-relative address: \"" ++ op ++ "\""
  | .narrowAddressing op =>
    "Only 64-bit general-purpose registers may address memory: \"" ++ op ++ "\""
  | .scaleInvalid factor => scaleText factor
  | .instructionInData sect => "Instruction in data section " ++ sect
  | .untypedParameters function names => function ++ ": " ++ untypedText names
  | .strayInstruction text => "Instruction outside of any function: " ++ text
  | .prologueMissing function =>
    "Function " ++ function ++
      " does not begin with a frame-pointer prologue (push rbp; mov rbp, rsp)"
  | .bodyMissing function => "Function " ++ function ++ " has no body"
  | .prologueUnfinished function => "Input ends before the prologue of " ++ function
  | .returnMissing function before =>
    "Function " ++ function ++ " has no return before " ++ before.text
  | .fallsThrough function past => "Function " ++ function ++ " falls through to " ++ past.text
  | .teardownMissing function =>
    "Cannot find frame teardown (pop rbp or leave) before ret in " ++ function
  | .vectorIndexed op =>
    "Vector-indexed memory operand \"" ++ op ++ "\" (gather or scatter) is not supported"
  | .dynamicStack =>
    "Stack pointer adjusted by a non-constant amount; Go frames have a fixed size"
  | .notEmittable directive reason => "Cannot emit '" ++ directive ++ "': " ++ reason
  | .notEncodable instruction reason => "Cannot encode '" ++ instruction ++ "': " ++ reason
  | .indirectCall instruction => "Indirect call '" ++ instruction ++ "' is not supported"
  | .callNotAllowed symbol allowed =>
    "Call to '" ++ symbol ++ "' is not allowed (allowed: " ++
      (if allowed.isEmpty then "none" else Text.commaList allowed) ++ ")"
  | .indirectJump instruction => "Indirect jump '" ++ instruction ++ "' is not supported"
  | .jumpLeaves target function => "Jump to '" ++ target ++ "' leaves function " ++ function
  | .argumentKind argument function kind =>
    "Argument '" ++ argument ++ "' of " ++ function ++ " has kind " ++ kind ++
      "; only 64-bit integer, pointer and float64 arguments are supported"
  | .resultKind function kind =>
    "Result of " ++ function ++ " has kind " ++ kind ++
      "; results must be 64-bit integer, float64 or one 128/256-bit vector"
  | .manyResults function count =>
    function ++ " returns " ++ toString count ++ " values; only one result is supported"
  | .narrowStackArgument address =>
    "Stack argument read " ++ address ++ " is narrower than 64 bits"
  | .narrowArgument register shown =>
    "Argument register " ++ register ++ " is first read as " ++ shown ++
      "; only 64-bit arguments are supported"
  | .singleArgument register =>
    "Argument register " ++ register ++
      " is first read as a float32 scalar; only float64 arguments are supported"
  | .notReadOnly symbol => "'" ++ symbol ++ "' is not in a read-only data section"
  | .dataMissing symbol => "No data found for symbol '" ++ symbol ++ "'"
  | .dataUndecodable symbol reason => "Cannot decode data for '" ++ symbol ++ "': " ++ reason
  | .dataEmpty symbol => "Symbol '" ++ symbol ++ "' labels no data"
  | .accessUnalignable bytes address locals =>
    toString bytes ++ "-byte aligned access " ++ address ++ " cannot be aligned in a frame with " ++
      toString locals ++ " bytes of locals"
  | .localsUnaligned locals =>
    "Local stack size " ++ toString locals ++ " is not a multiple of 8"
  | .noPoolRegister candidates =>
    "No free register to hold the constant pool address (all of " ++ Text.commaList candidates ++
      " are used)"

end Defect

/-- A defect with the place where it was found. -/
structure Diagnostic where
  defect : Defect
  function : Option String := none
  line : Option Nat := none
  /-- The piece of source that shows the defect. -/
  construct : Option String := none
deriving DecidableEq, Repr

namespace Diagnostic

/-- The diagnostic with function and line filled in where it has none. -/
def located (d : Diagnostic) (function : Option String) (line : Option Nat) : Diagnostic :=
  { d with function := d.function.or function, line := d.line.or line }

/-- The diagnostic on one line: file and line, function, kind, wording. -/
def text (d : Diagnostic) (file : Option String) : String :=
  let name :=
    match file with
    | some f => if f.isEmpty then "<input>" else f
    | none => "<input>"
  let place :=
    match d.line with
    | some n => name ++ ":" ++ toString n
    | none => name
  String.intercalate ": "
    ([place] ++ d.function.toList ++ [d.defect.kind.name ++ ": " ++ d.defect.message])

end Diagnostic

end AsmBridge
