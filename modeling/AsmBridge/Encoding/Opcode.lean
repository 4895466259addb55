import AsmBridge.Register
import AsmBridge.Text.Numeral
import AsmBridge.Binary.Word

/-!
# Opcodes

One form of an instruction is described in the opcode column of the manual by a short text such
as `REX.W + 81 /0 id` or `VEX.NDS.256.66.0F38.W0 A8 /r`. `OpcodeEntry` is that text as data, with
its printer; `OpcodeSpec` is what the encoder needs of it; `OpcodeSpec.read` obtains the latter from
any such text.
-/

namespace AsmBridge

/-- A prefix byte that is part of an opcode. -/
inductive Mandatory
  | x66
  | xF3
  | xF2
deriving DecidableEq, Repr

namespace Mandatory

def byte : Mandatory → UInt8
  | .x66 => 0x66
  | .xF3 => 0xf3
  | .xF2 => 0xf2

/-- The two bits that stand for the prefix in a VEX prefix. -/
def vexCode : Mandatory → Nat
  | .x66 => 1
  | .xF3 => 2
  | .xF2 => 3

def text : Mandatory → String
  | .x66 => "66"
  | .xF3 => "F3"
  | .xF2 => "F2"

end Mandatory

/-- The leading opcode bytes that a VEX prefix stands for. -/
inductive OpcodeMap
  | m0F
  | m0F38
  | m0F3A
deriving DecidableEq, Repr

namespace OpcodeMap

def vexCode : OpcodeMap → Nat
  | .m0F => 1
  | .m0F38 => 2
  | .m0F3A => 3

def text : OpcodeMap → String
  | .m0F => "0F"
  | .m0F38 => "0F38"
  | .m0F3A => "0F3A"

end OpcodeMap

/-- What the third register of a VEX form is for, where the manual says so. -/
inductive ThirdOperand
  | firstSource
  | destination
  | secondSource
deriving DecidableEq, Repr

def ThirdOperand.text : ThirdOperand → String
  | .firstSource => "NDS"
  | .destination => "NDD"
  | .secondSource => "DDS"

/-- The vector length of a VEX form; scalar forms ignore it. -/
inductive VectorLength
  | l128
  | l256
  | ignored
deriving DecidableEq, Repr

def VectorLength.text : VectorLength → String
  | .l128 => "128"
  | .l256 => "256"
  | .ignored => "LIG"

def VectorLength.bit : VectorLength → Nat
  | .l256 => 1
  | _ => 0

/-- The width bit of a VEX form; most forms ignore it. -/
inductive VexW
  | w0
  | w1
  | ignored
deriving DecidableEq, Repr

def VexW.text : VexW → String
  | .w0 => "W0"
  | .w1 => "W1"
  | .ignored => "WIG"

def VexW.bit : VexW → Nat
  | .w1 => 1
  | _ => 0

/-- The fields of a VEX prefix that the opcode fixes. -/
structure VexSpec where
  w : Nat := 0
  l : Nat := 0
  pp : Nat := 0
  m : Nat := 1
deriving DecidableEq, Repr

/-- What the encoder needs of an opcode. -/
structure OpcodeSpec where
  vex : Option VexSpec := none
  /-- The operation is 64 bits wide by an extension byte. -/
  rexW : Bool := false
  mandatory : Option UInt8 := none
  opcode : List UInt8 := []
  /-- The low bits of the last opcode byte hold a register. -/
  regInOpcode : Bool := false
  /-- Three bits of opcode in the middle field of ModR/M. -/
  extension : Option Nat := none
deriving DecidableEq, Repr

/-- How an opcode begins. -/
inductive OpcodeLead
  | plain
  | rexW
  | vex (third : Option ThirdOperand) (length : VectorLength) (mandatory : Option Mandatory)
      (map : OpcodeMap) (w : VexW)
deriving DecidableEq, Repr

/-- What follows the opcode bytes. -/
inductive OpcodeMark
  /-- ModR/M holds a register and an operand. -/
  | modrm
  /-- ModR/M holds three bits of opcode and an operand. -/
  | extension (n : Fin 8)
  /-- An immediate. -/
  | imm (w : Width)
  /-- An immediate byte that holds a register. -/
  | register
deriving DecidableEq, Repr

/-- The opcode column of one form. -/
structure OpcodeEntry where
  lead : OpcodeLead
  /-- The opcode bytes, a mandatory prefix of a form without VEX included. -/
  bytes : List UInt8
  /-- A register of this width is added to the last byte. -/
  plus : Option Width := none
  marks : List OpcodeMark := []
deriving DecidableEq, Repr

namespace OpcodeEntry

/-- The letter of a width in the notation: byte, word, doubleword or octet of bytes. -/
def widthLetter : Width → String
  | .w8 => "b"
  | .w16 => "w"
  | .w32 => "d"
  | .w64 => "q"

/-- The letter of the width of an immediate. -/
def immLetter : Width → String
  | .w64 => "o"
  | w => widthLetter w

def markText : OpcodeMark → String
  | .modrm => "/r"
  | .extension n => "/" ++ toString n.val
  | .imm w => "i" ++ immLetter w
  | .register => "/is4"

def leadText : OpcodeLead → String
  | .plain => ""
  | .rexW => "REX.W + "
  | .vex third length mandatory map w =>
    String.intercalate "."
      (["VEX"] ++ (third.map (·.text)).toList ++ [length.text] ++
        (mandatory.map (·.text)).toList ++ [map.text, w.text]) ++ " "

/-- The opcode bytes, in capitals behind VEX. -/
def bytesText (e : OpcodeEntry) : String :=
  match e.lead with
  | .vex .. => (Bytes.packed e.bytes).toUpper
  | _ => Bytes.packed e.bytes

/-- The entry in the notation of the manual. -/
def text (e : OpcodeEntry) : String :=
  String.intercalate " "
    ((leadText e.lead ++ e.bytesText ++
      ((e.plus.map fun w => "+r" ++ widthLetter w).getD "")) :: e.marks.map markText)

/-- The last opcode extension among the marks. -/
def extension? (e : OpcodeEntry) : Option Nat :=
  e.marks.foldl (fun found m =>
    match m with
    | .extension n => some n.val
    | _ => found) none

end OpcodeEntry

namespace OpcodeSpec

/-- The bytes that are a mandatory prefix when they begin a longer opcode. -/
def mandatoryBytes : List UInt8 := [0x66, 0xf2, 0xf3]

/-- The spec with its opcode bytes; without VEX a mandatory prefix is set apart, since an
extension byte comes between it and the rest. -/
def withBytes (s : OpcodeSpec) (bytes : List UInt8) : OpcodeSpec :=
  match s.vex, bytes with
  | none, b :: c :: rest =>
    if mandatoryBytes.contains b then { s with mandatory := some b, opcode := c :: rest }
    else { s with opcode := b :: c :: rest }
  | _, bytes => { s with opcode := bytes }

end OpcodeSpec

/-- What the encoder needs of an entry. -/
def OpcodeEntry.spec (e : OpcodeEntry) : OpcodeSpec :=
  let start : OpcodeSpec :=
    match e.lead with
    | .plain => {}
    | .rexW => { rexW := true }
    | .vex _ length mandatory map w =>
      { vex := some ⟨w.bit, length.bit, (mandatory.map (·.vexCode)).getD 0, map.vexCode⟩ }
  { start.withBytes e.bytes with regInOpcode := e.plus.isSome, extension := e.extension? }

/-- Why an opcode text cannot be read. -/
inductive OpcodeError
  | vexField (token field : String)
  | opcodeMissing
  | opcodeDigits
  | extensionMissing
  | extensionDigit
deriving DecidableEq, Repr

def OpcodeError.message? : OpcodeError → Option String
  | .vexField token field =>
    some ("Invalid VEX field '" ++ token ++ "' in opcode '" ++ field ++ "'")
  | _ => none

namespace OpcodeSpec

/-- The VEX fields after one more token of the notation. -/
def vexToken? (v : VexSpec) (token : String) : Option VexSpec :=
  if ["NDS", "NDD", "DDS"].contains token then some v
  else if ["128", "L0", "LZ", "LIG"].contains token then some { v with l := 0 }
  else if ["256", "L1"].contains token then some { v with l := 1 }
  else if token == "66" then some { v with pp := 1 }
  else if token == "F3" then some { v with pp := 2 }
  else if token == "F2" then some { v with pp := 3 }
  else if token == "0F" then some { v with m := 1 }
  else if token == "0F38" then some { v with m := 2 }
  else if token == "0F3A" then some { v with m := 3 }
  else if ["W0", "WIG"].contains token then some { v with w := 0 }
  else if token == "W1" then some { v with w := 1 }
  else none

/-- The VEX fields of a row of tokens. -/
def vexTokens (field : String) (v : VexSpec) : List (List Char) → Except OpcodeError VexSpec
  | [] => .ok v
  | t :: rest =>
    match vexToken? v (String.ofList t) with
    | some v => vexTokens field v rest
    | none => .error (.vexField (String.ofList t) field)

/-- Pairs of hexadecimal digits, between which ASCII blanks may stand. -/
def hexPairs? : List Char → Option (List UInt8)
  | [] => some []
  | c :: rest =>
    if c == ' ' || (9 ≤ c.toNat && c.toNat ≤ 13) then hexPairs? rest
    else
      match rest with
      | d :: rest => do
        let hi ← Text.digitIn? 16 c
        let lo ← Text.digitIn? 16 d
        let more ← hexPairs? rest
        return UInt8.ofNat (16 * hi + lo) :: more
      | [] => none

/-- The spec after the marks behind the opcode. -/
def readMarks (s : OpcodeSpec) : List (List Char) → Except OpcodeError OpcodeSpec
  | [] => .ok s
  | part :: rest =>
    if part == "/r".toList || part == "/is4".toList then readMarks s rest
    else
      match part with
      | '/' :: d :: _ =>
        match Text.digit? d with
        | some n => readMarks { s with extension := some n } rest
        | none => .error .extensionDigit
      | ['/'] => .error .extensionMissing
      | _ => readMarks s rest

/-- The opcode bytes and the marks. -/
def readBody (s : OpcodeSpec) : List (List Char) → Except OpcodeError OpcodeSpec
  | [] => .error .opcodeMissing
  | head :: marks =>
    let (digits, plus) := Text.cutAt '+' head
    match hexPairs? digits with
    | none => .error .opcodeDigits
    | some bytes => readMarks { s.withBytes bytes with regInOpcode := plus.isSome } marks

/-- What the encoder needs of an opcode given in the notation of the manual. -/
def read (text : String) : Except OpcodeError OpcodeSpec :=
  match text.toList.splitOn ' ' with
  | first :: rest =>
    if "VEX.".toList.isPrefixOf first then do
      let vex ← vexTokens (String.ofList first) {} ((first.splitOn '.').drop 1)
      readBody { vex := some vex } rest
    else
      match rest with
      | second :: body =>
        if first == "REX.W".toList && second == ['+'] then readBody { rexW := true } body
        else readBody {} (first :: rest)
      | [] => readBody {} (first :: rest)
  | [] => .error .opcodeMissing

end OpcodeSpec

end AsmBridge
