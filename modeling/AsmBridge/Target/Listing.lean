import AsmBridge.Target.Instruction
import AsmBridge.Record
import AsmBridge.Pool
import AsmBridge.Fault

/-!
# The listing

The written form of a converted unit: header, constant pool, and one block per function. Machine
code that the target dialect has no words for is written as data literals, each instruction on a
line with the statement it came from. Rows of bytes are cut into pieces for this, and
`flatten_pieces` says that the pieces one after another are the row.
-/

namespace AsmBridge

/-- The widths in bytes of data literals with their names, widest first. -/
def literalWidths : List (Nat × String) := [(8, "QUAD"), (4, "LONG"), (2, "WORD"), (1, "BYTE")]

/-- The name of a literal of so many bytes. -/
def literalName (width : Nat) : String := (literalWidths.lookup width).getD "BYTE"

/-- The greatest width of a literal that `fits`; a byte always does. -/
def widest (fits : Nat → Bool) : Nat := ((literalWidths.map (·.1)).find? fits).getD 1

/-- Every width is at least a byte. -/
theorem widest_pos (fits : Nat → Bool) : 0 < widest fits := by
  unfold widest
  cases h : (literalWidths.map (·.1)).find? fits with
  | none => simp
  | some w =>
    have hm := List.mem_of_find?_eq_some h
    simp only [literalWidths, List.map_cons, List.map_nil, List.mem_cons, List.not_mem_nil,
      or_false] at hm
    rcases hm with rfl | rfl | rfl | rfl <;> simp

/-- The number of bytes left for a literal, of which more than eight count as eight. -/
def bytesLeft (data : List UInt8) : Nat := (data.take 8).length

/-- A row of bytes in pieces with their offsets, each as wide as `fits` allows; that is told the
offset, the number of bytes left and the width. -/
def pieces (fits : Nat → Nat → Nat → Bool) (offset : Nat) : List UInt8 → List (Nat × List UInt8)
  | [] => []
  | b :: rest =>
    let width := widest (fits offset (bytesLeft (b :: rest)))
    (offset, (b :: rest).take width) :: pieces fits (offset + width) (rest.drop (width - 1))
termination_by data => data.length
decreasing_by
  simp only [List.length_drop, List.length_cons]
  omega

@[simp] theorem pieces_nil (fits : Nat → Nat → Nat → Bool) (offset : Nat) :
    pieces fits offset [] = [] := by
  simp only [pieces]

/-- The pieces one after another are the row. -/
theorem flatten_pieces (fits : Nat → Nat → Nat → Bool) (offset : Nat) :
    ∀ data : List UInt8, ((pieces fits offset data).map (·.2)).flatten = data
  | [] => by simp
  | b :: rest => by
    have hpos := widest_pos (fits offset (bytesLeft (b :: rest)))
    have ih := flatten_pieces fits (offset + widest (fits offset (bytesLeft (b :: rest))))
      (rest.drop (widest (fits offset (bytesLeft (b :: rest))) - 1))
    have htake : (b :: rest).take (widest (fits offset (bytesLeft (b :: rest)))) =
        b :: rest.take (widest (fits offset (bytesLeft (b :: rest))) - 1) := by
      rw [List.take_cons hpos]
    simp only [pieces, List.map_cons, List.flatten_cons, ih]
    rw [htake, List.cons_append, List.take_append_drop]
termination_by data => data.length
decreasing_by
  simp only [List.length_drop, List.length_cons]
  omega

/-- A data literal of the given bytes. -/
def literalText (bytes : List UInt8) : String :=
  literalName bytes.length ++ " $0x" ++ Text.hex (2 * bytes.length) (ofLittleEndian bytes)

/-- The pieces of machine code: bytes, or in compact form the widest literals that the rest of the
code fills. -/
def codePieces (compact : Bool) (code : List UInt8) : List (Nat × List UInt8) :=
  pieces (fun _ left width => width == 1 || (compact && width ≤ left)) 0 code

/-- The data literals of machine code. -/
def literals (compact : Bool) (code : List UInt8) : List String :=
  (codePieces compact code).map fun p => literalText p.2

/-- A label in the target dialect: without points at its front. -/
def targetLabel (name : String) : String :=
  String.ofList (name.toList.dropWhile (· == '.'))

/-- An item of a converted body. -/
inductive Item
  | label (name : String)
  | directive (d : Directive)
  /-- Machine code with the statement it stands for. -/
  | code (bytes : List UInt8) (source : Option String)
  | native (i : TargetInstruction)
  /-- A line as it stands. -/
  | verbatim (text : String)
  /-- Something that is no item; `shown` is its listing. -/
  | other (shown : String)
deriving DecidableEq, Repr

/-- What a listing shows. -/
structure ListingStyle where
  /-- Machine code in wide literals. -/
  compact : Bool := false
  /-- The statements behind machine code. -/
  comments : Bool := true
  /-- Directives, as comments. -/
  directives : Bool := false
deriving DecidableEq, Repr

/-- The text with blanks up to a width. -/
def padded (width : Nat) (s : String) : String :=
  s ++ String.ofList (List.replicate (width - s.length) ' ')

/-- A line of machine code. -/
def codeLine (style : ListingStyle) (bytes : List UInt8) (source : Option String) : String :=
  let text := String.intercalate "; " (literals style.compact bytes)
  match source with
  | some s => if style.comments then padded 40 text ++ " // " ++ s else text
  | none => text

/-- The lines of an item. -/
def Item.lines (style : ListingStyle) : Item → Except Stop (List String)
  | .label name => .ok [targetLabel name ++ ":"]
  | .directive d => .ok (if style.directives then ["\t// " ++ d.text] else [])
  | .code bytes source => .ok ["\t" ++ codeLine style bytes source]
  | .native i => .ok ["\t" ++ i.text]
  | .verbatim text => .ok ["\t" ++ text]
  | .other shown => .error (.unrenderable shown)

/-- The lines of a body. -/
def renderItems (style : ListingStyle) (items : List Item) : Except Stop (List String) :=
  (items.mapM (Item.lines style)).map List.flatten

/-- The head of a function's block. -/
def blockHead (symbol : String) (frameSize : Int) (argSize : Nat) : String :=
  "TEXT ·" ++ symbol ++ "(SB), $" ++ toString frameSize ++ "-" ++ toString argSize

/-- The pieces of a pool's data, each aligned and filled. -/
def poolPieces (data : List UInt8) : List (Nat × List UInt8) :=
  pieces (fun offset left width => offset % width == 0 && width ≤ left) 0 data

/-- The statement of a piece of a pool's data. -/
def poolLine (name : String) (p : Nat × List UInt8) : String :=
  "DATA " ++ name ++ "<>+0x" ++ Text.hex 3 p.1 ++ "(SB)/" ++ toString p.2.length ++ ", $0x" ++
    Text.hex (2 * p.2.length) (ofLittleEndian p.2)

/-- The statements of a pool: its data, and its size and nature at the end. An empty pool has
none. -/
def renderPool (p : Pool) : Except Stop (List String) :=
  if p.slots.isEmpty then .ok []
  else
    p.contents.map fun data =>
      (poolPieces data).map (poolLine p.name) ++
        ["GLOBL " ++ p.name ++ "<>(SB), RODATA|NOPTR, $" ++ toString data.length]

/-- The mark of generated files. -/
def generatedMark : List String :=
  ["// Code generated by c2plan9. DO NOT EDIT.", "//+build !noasm !appengine", ""]

/-- The first lines of a listing. -/
def listingHeader : List String := generatedMark ++ ["#include \"textflag.h\""]

/-- The lines as a text, each ended by a line break. -/
def joinLines (lines : List String) : String := String.intercalate "\n" lines ++ "\n"

end AsmBridge
