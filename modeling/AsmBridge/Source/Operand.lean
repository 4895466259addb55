import AsmBridge.Fault
import AsmBridge.Text.Numeral

/-!
# Reading operands

An operand is a register, a number, a symbol or, when it ends in a bracket, a memory operand, which
a width may precede. A memory operand is a sum of signed terms in brackets; terms before the
bracket join the sum, so that `s+8[rip]` means `[rip + s + 8]`.
-/

namespace AsmBridge.Source

/-- A failure at a line of the source, shown by a piece of it. -/
def defectAt (line : Option Nat) (construct : String) (d : Defect) : Fault :=
  .defect { defect := d, line := line, construct := some construct }

/-- An optional sign and ASCII digits, of which those behind `0x` are hexadecimal; a final line
break is allowed. -/
def isNumber (s : List Char) : Bool :=
  let body :=
    match s with
    | '+' :: rest => rest
    | '-' :: rest => rest
    | s => s
  let body := if body.getLast? == some '\n' then body.dropLast else body
  let isHex := fun c => (Text.digitIn? 16 c).isSome
  match body with
  | '0' :: 'x' :: rest => Text.someAll isHex rest
  | '0' :: 'X' :: rest => Text.someAll isHex rest
  | ds => Text.someAll Char.isDigit ds

/-- A symbol: a letter, point or the like and then word characters; a final line break is
allowed. -/
def isSymbol (s : List Char) : Bool :=
  let body := if s.getLast? == some '\n' then s.dropLast else s
  match body with
  | c :: rest => Text.isSymbolStart c && rest.all Text.isSymbolRest
  | [] => false

/-- The value of a number with signs in front, the first of which counts. A leading zero makes it
octal unless `x` follows. -/
def number? (s : List Char) : Option Int :=
  let digits := s.dropWhile fun c => c == '+' || c == '-'
  let radix : Text.Radix :=
    match digits with
    | '0' :: c :: _ => if c == 'x' || c == 'X' then .marked else .octal
    | _ => .marked
  (Text.integer? radix digits).map fun v => if s.head? == some '-' then -v else v

/-- `number?` as a step of reading. -/
def number (s : List Char) : Except Fault Int :=
  match number? s with
  | some v => .ok v
  | none => .error (.stop .numberUnreadable)

/-- A term of a sum with its sign. -/
structure Term where
  negative : Bool
  text : List Char
deriving DecidableEq, Repr

/-- A sign. -/
def isSign (c : Char) : Bool := c == '+' || c == '-'

/-- What remains of a run between signs without the blanks at its front; of nothing but blanks the
last one remains. -/
def termText (run : List Char) : List Char :=
  match Text.trimLeft run with
  | [] => run.drop (run.length - 1)
  | t => t

/-- The terms of a sum. Of several signs in a row the last one counts, and signs at the end are
ignored. `negative` is the sign before the rest and `run` the reverse of the run being read. -/
def termsFrom (negative : Bool) : List Char → List Char → List Term
  | run, [] => if run.isEmpty then [] else [⟨negative, termText run.reverse⟩]
  | run, c :: rest =>
    if isSign c then
      (if run.isEmpty then [] else [⟨negative, termText run.reverse⟩]) ++
        termsFrom (c == '-') [] rest
    else termsFrom negative (c :: run) rest

/-- The terms of a sum, spaces apart. -/
def terms (s : List Char) : List Term := termsFrom false [] (s.filter (· != ' '))

/-- The parts of an address as far as its terms are read. -/
structure Sum where
  base : Option Register := none
  index : Option Register := none
  scale : Option Int := none
  disp : Int := 0
  symbol : Option String := none
deriving DecidableEq, Repr

/-- The register of a name. -/
def register? (s : List Char) : Option Register := Register.ofName? (String.ofList s)

/-- A product of a register and a number in either order. -/
def product (fail : Defect → Fault) (term a b : List Char) : Except Fault (Register × Int) :=
  match register? a, isNumber b, register? b, isNumber a with
  | some r, true, _, _ => (number b).map fun n => (r, n)
  | _, _, some r, true => (number a).map fun n => (r, n)
  | _, _, _, _ => .error (fail (.scaledIndexUnreadable (String.ofList term)))

/-- The sum with one more term of the operand `op`. -/
def Sum.add (line : Option Nat) (op : String) (s : Sum) (t : Term) : Except Fault Sum :=
  let fail := defectAt line op
  match Text.cutAt '*' t.text with
  | (a, some b) => do
    let (r, n) ← product fail t.text a b
    if s.index.isSome || t.negative then throw (fail (.indexInvalid op))
    return { s with index := some r, scale := some n }
  | (_, none) =>
    match register? t.text with
    | some r =>
      if t.negative then .error (fail (.registerSubtracted op))
      else if s.base.isNone then .ok { s with base := some r }
      else if s.index.isNone then .ok { s with index := some r, scale := some 1 }
      else .error (fail (.tooManyRegisters op))
    | none =>
      if isNumber t.text then do
        let v ← number t.text
        return { s with disp := s.disp + if t.negative then -v else v }
      else if isSymbol t.text then
        if s.symbol.isSome || t.negative then .error (fail (.symbolExpression op))
        else .ok { s with symbol := some (String.ofList t.text) }
      else .error (defectAt line (String.ofList t.text) (.addressUnreadable op))

/-- The registers of a sum that may take part in an address neither as such nor as the instruction
pointer. -/
def Sum.wrongRegister? (s : Sum) : Option Register :=
  (s.base.toList ++ s.index.toList).find? fun r => r != .rip && !r.isAddressing

/-- The address of a complete sum. -/
def Sum.address (line : Option Nat) (op : String) (bits : Option Nat) (s : Sum) :
    Except Fault Address := do
  let fail := defectAt line op
  if let some symbol := s.symbol then
    if s.base != some .rip then throw (fail (.absoluteReference symbol))
  if s.index.isSome && (s.base == some .rip || s.index == some .rip) then
    throw (fail (.ripIndexedOperand op))
  if (s.index.map (·.isVector)).getD false then throw (fail (.vectorIndexed op))
  if let some r := s.wrongRegister? then
    throw (defectAt line r.name (.narrowAddressing op))
  match s.scale with
  | none => return Address.ofParts s.base s.index none s.disp bits s.symbol
  | some n =>
    match Scale.ofFactor? n with
    | some scale => return Address.ofParts s.base s.index (some scale) s.disp bits s.symbol
    | none => throw (fail (.scaleInvalid n))

/-- The terms of a memory operand: those in the brackets, then those before them. -/
def addressTerms? (op : List Char) : Option (List Char) :=
  match op with
  | '[' :: rest => some rest.dropLast
  | op =>
    match Text.cutAt '[' op with
    | (outer, some rest) =>
      let inner := rest.dropLast
      if inner.contains '\n' then none
      else
        match outer with
        | c :: _ => some (inner ++ (if isSign c then outer else '+' :: outer))
        | [] => some inner
    | (_, none) => none

/-- The address of a memory operand without its width. -/
def readAddress (line : Option Nat) (bits : Option Nat) (op : List Char) :
    Except Fault Address := do
  let text := String.ofList op
  match addressTerms? op with
  | none => throw (defectAt line text (.addressUnreadable text))
  | some sum =>
    let s ← (terms sum).foldlM (Sum.add line text) {}
    s.address line text bits

/-- The words for a width before a memory operand. -/
def widthWords : List (String × Nat) := [
  ("byte", 8), ("word", 16), ("dword", 32), ("qword", 64), ("tbyte", 80), ("xmmword", 128),
  ("oword", 128), ("ymmword", 256), ("yword", 256), ("zmmword", 512)]

/-- What follows a word in letters of either case and the blanks behind it. -/
def afterWord? (word : String) (s : List Char) : Option (List Char) :=
  let n := (Text.chars word).length
  if (s.take n).map Char.toLower == Text.chars word then
    match s.drop n with
    | c :: rest => if Text.isBlank c then some (Text.trimLeft rest) else none
    | [] => none
  else none

/-- The text as the rest of a line: nothing but its end may be a line break, which is dropped. -/
def restOfLine? (s : List Char) : Option (List Char) :=
  match Text.cutAt '\n' s with
  | (line, none) => some line
  | (line, some []) => some line
  | _ => none

/-- The width in bits that an operand begins with, and the rest. -/
def width? (op : List Char) : Option (Nat × List Char) :=
  widthWords.findSome? fun p => do
    let rest ← afterWord? p.1 op
    let rest ← restOfLine? ((afterWord? "ptr" rest).getD rest)
    return (p.2, Text.trim rest)

/-- A letter that some letter of ASCII equals when case is ignored. -/
def isAnyLetter (c : Char) : Bool :=
  c.isAlpha || c == '\u0130' || c == '\u0131' || c == '\u017f' || c == '\u212a'

/-- The operand begins with a segment register. -/
def isSegmented : List Char → Bool
  | c :: d :: ':' :: _ => isAnyLetter c && (d == 's' || d == 'S' || d == '\u017f')
  | _ => false

/-- The operand asks for the absolute address of a symbol. -/
def isOffset (op : List Char) : Bool :=
  (Text.chars "OFFSET").isPrefixOf (op.flatMap Text.capitals)

/-- The operand of a text. -/
def readOperand (line : Option Nat) (source : List Char) : Except Fault Operand :=
  let (bits, op) :=
    match width? source with
    | some (bits, rest) => (some bits, rest)
    | none => (none, source)
  let text := String.ofList op
  let fail := defectAt line text
  if isOffset op then .error (fail (.absoluteAddress text))
  else if isSegmented op then .error (fail (.segmentOverride text))
  else if op.getLast? == some ']' then (readAddress line bits op).map .mem
  else if bits.isSome then .error (fail (.sizeWithoutMemory text))
  else
    match register? op with
    | some .rip => .error (fail .ripAsOperand)
    | some r => .ok (.reg r)
    | none =>
      if isNumber op then (number op).map .imm
      else if isSymbol op then .ok (.sym text)
      else .error (fail (.operandUnreadable text))

end AsmBridge.Source
