import AsmBridge.Operand

/-!
# Why an instruction cannot be encoded
-/

namespace AsmBridge

/-- Why an instruction cannot be encoded. -/
inductive EncodeError
  | unknownMnemonic (name : String)
  /-- The instruction pointer stands as an operand of its own. -/
  | pointerRegister
  | symbolic (name : String)
  | immediateTooLarge (value : Int)
  /-- It is also too long to be shown. -/
  | immediateUnwritable
  | noForm (mnemonic : String) (signature : List String)
  /-- Neither a register nor three bits of opcode; `shown` is the operand as diagnostics show
  it. -/
  | notRegField (shown : String)
  /-- The operand that would have to be shown is of a width that has no word. -/
  | unnamedWidth
  | ripDirect
  /-- Neither a register nor an address; `sort` names what it is. -/
  | notAddressable (sort : String)
  | unresolvedSymbol (name : String)
  | notAddressing (r : Register)
  | ripIndexed
  | stackIndex (r : Register)
  | displacementTooLarge (disp : Int)
  /-- The displacement of an address relative to the instruction pointer leaves its field. -/
  | ripDisplacement
  | registerAndExtension
  | unknownMark (mark : String)
  | extensionWithVex (r : Register)
  | highByteWithExtension (r : Register)
deriving DecidableEq, Repr

namespace EncodeError

/-- The error is one of the operands, which tells that an instruction cannot be encoded. The others
end an operation: two without a place in an instruction, and an operand that cannot be shown. -/
def isRefusal : EncodeError → Bool
  | .immediateUnwritable | .unnamedWidth | .ripDisplacement | .registerAndExtension => false
  | _ => true

/-- The wording of an error. An overflow of the field relative to the instruction pointer has
none, nor has an operand that cannot be shown. -/
def message? : EncodeError → Option String
  | .unknownMnemonic name => some ("Unknown instruction '" ++ name ++ "'")
  | .pointerRegister => some "Register rip cannot be used as an operand."
  | .symbolic name => some ("Symbolic operand '" ++ name ++ "' cannot be encoded.")
  | .immediateTooLarge v =>
    some ("Immediate " ++ Operand.immText v ++ " does not fit in 64 bits.")
  | .noForm mnemonic signature =>
    some ("Argument types not accepted for instruction " ++ mnemonic ++ ": " ++
      (if signature.isEmpty then "(none)" else Text.commaList signature))
  | .notRegField shown =>
    some ("ModR/M reg field must be a register or opcode extension 0-7 (got " ++ shown ++ ").")
  | .immediateUnwritable => none
  | .unnamedWidth => none
  | .ripDirect => some "rip can only be used to address memory."
  | .notAddressable sort =>
    some ("ModR/M r/m operand must be a Register or Pointer (got " ++ sort ++ ").")
  | .unresolvedSymbol name => some ("Cannot encode unresolved symbol reference '" ++ name ++ "'.")
  | .notAddressing r => some ("Invalid register for pointer: " ++ r.name)
  | .ripIndexed => some "Cannot combine rip with an index register."
  | .stackIndex r => some ("Cannot encode register " ++ r.name ++ " as SIB index.")
  | .displacementTooLarge d =>
    some ("Displacement 0x" ++ Text.hexInt d ++ " does not fit in 32 bits.")
  | .ripDisplacement => none
  | .registerAndExtension =>
    some "Cannot encode both register and opcode extension in ModR/M."
  | .unknownMark mark => some ("Unknown instruction prefix '" ++ mark ++ "'")
  | .extensionWithVex r =>
    some ("Register " ++ r.name ++ " requires a REX prefix, which cannot be combined with VEX.")
  | .highByteWithExtension r =>
    some ("Register " ++ r.name ++ " cannot be encoded with a REX prefix.")

/-- The wording of an error, empty where there is none. -/
def message (e : EncodeError) : String := e.message?.getD ""

end EncodeError

end AsmBridge
