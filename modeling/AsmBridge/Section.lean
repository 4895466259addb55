import AsmBridge.Text.Numeral

/-!
# Sections

Sections are told apart by their names: those of instructions, those of read-only data, and all
others, which hold writable data. Names that begin with two underscores give a segment and a
section, the custom of one of the two object formats.
-/

namespace AsmBridge.Section

/-- The section that is in effect at the start of a unit. -/
def text : String := ".text"

/-- The name is of the form segment and section. -/
def isSegmented (s : String) : Bool := Text.startsWith "__" s

/-- The section holds instructions. -/
def isText (s : String) : Bool :=
  s == ".text" || Text.startsWith ".text." s || s == "__TEXT,__text"

/-- The section holds read-only data. -/
def isReadOnly (s : String) : Bool :=
  if isSegmented s then
    let (segment, rest) := Text.cutAt ',' s.toList
    segment == "__TEXT".toList &&
      Text.startsWithAny ["__literal", "__const", "__cstring"] (String.ofList (rest.getD []))
  else Text.startsWithAny [".rodata", ".literal", ".const"] s

/-- The section begins like one of instructions, so that its labels are no data. -/
def resemblesText (s : String) : Bool := Text.startsWithAny [".text", "__TEXT,__text"] s

/-- The digits that follow the first `.cst` or `__literal` with a digit behind it. -/
def sizeInName? : List Char → Option (List Char)
  | [] => none
  | c :: rest =>
    let s := c :: rest
    let digits := ((Text.after? ".cst" s).or (Text.after? "__literal" s)).map fun t =>
      t.takeWhile fun d => (Text.digit? d).isSome
    match digits with
    | some (d :: ds) => some (d :: ds)
    | _ => sizeInName? rest

/-- The size of the entities of a mergeable section, as its name tells, or one. -/
def entitySize (s : String) : Except Text.NumeralError Nat :=
  match sizeInName? s.toList with
  | some ds => Text.plainDecimal ds
  | none => .ok 1

end AsmBridge.Section
