import AsmBridge.Data.Directive
import AsmBridge.Text.Scan

/-!
# Index of constant data

The labelled data of the read-only sections of a unit. A blob reaches from its label to the next
label behind data or to the next switch of sections; labels without data between them name the same
blob. The index also knows the labels of writable data, to tell why it lacks them.
-/

namespace AsmBridge

/-- Labelled data. -/
structure Blob where
  /-- The first of its labels. -/
  symbol : String
  data : List UInt8 := []
  align : Int := 1
  sect : Option String := none
  line : Option Nat := none
  /-- Why part of the data is missing: the last directive that could not be read. -/
  problem : Option String := none
deriving DecidableEq, Repr

/-- A blob with the data of one more directive, or with the reason why it cannot be read. -/
def Blob.extend (b : Blob) (d : Directive) : Except Fault Blob :=
  match d.bytes with
  | .ok bytes => .ok { b with data := b.data ++ bytes }
  | .error (.stop s) => .error (.stop s)
  | .error e =>
    .ok { b with problem := some (e.reason ++ " (line " ++ toString (d.line.getD 0) ++ ")") }

/-- A blob with its labels, last first. -/
structure LabelledBlob where
  labels : List String
  blob : Blob
deriving DecidableEq, Repr

/-- The data of a unit by label. -/
structure DataIndex where
  /-- The blobs, last first. -/
  blobs : List LabelledBlob := []
  /-- The labels of writable data, last first. -/
  writable : List String := []
deriving DecidableEq, Repr

namespace DataIndex

/-- How far a unit is indexed. -/
structure State where
  index : DataIndex := {}
  /-- Data belongs to the last blob. -/
  inBlob : Bool := false
  /-- The alignment that is asked for the next label. -/
  align : Int := 1
  entity : Int := 1
deriving Repr

/-- The directives after which data belongs to no label. -/
def sectionSwitches : List String :=
  [".section", ".text", ".data", ".bss", ".previous", ".pushsection", ".popsection"]

/-- The blob that a label of read-only data begins. -/
def State.newBlob (s : State) (l : Label) : LabelledBlob :=
  ⟨[l.name], { symbol := l.name, align := max s.align s.entity, sect := l.sect, line := l.line }⟩

/-- A label of read-only data: another name for a blob that is still empty, or a new blob. -/
def State.label (s : State) (l : Label) : State :=
  let blobs :=
    match s.index.blobs with
    | last :: rest =>
      if s.inBlob && last.blob.data.isEmpty then { last with labels := l.name :: last.labels } :: rest
      else s.newBlob l :: last :: rest
    | [] => [s.newBlob l]
  { s with index := { s.index with blobs := blobs }, inBlob := true, align := 1 }

/-- A directive in a read-only section. -/
def State.directive (s : State) (d : Directive) : Except Fault State :=
  if Directive.isAlignmentName d.name then
    match d.alignment with
    | .ok n => .ok { s with align := max s.align n }
    | .error e => .error (.stop e)
  else if Directive.isDataName d.name && s.inBlob then
    match s.index.blobs with
    | last :: rest => do
      let blob ← last.blob.extend d
      return { s with index := { s.index with blobs := { last with blob := blob } :: rest } }
    | [] => .ok s
  else .ok s

/-- The record selects a section. -/
def switches : Record → Option Directive
  | .directive d => if sectionSwitches.contains d.name then some d else none
  | _ => none

/-- The section of a record. -/
def sectionOf : Record → String
  | .label l => l.sect.getD ""
  | .directive d => d.sect.getD ""
  | .instruction i => i.sect.getD ""

/-- One record more. -/
def State.record (s : State) (r : Record) : Except Fault State :=
  match switches r with
  | some d => do
    let entity ← d.entitySize.mapError Fault.stop
    return { s with inBlob := false, align := 1, entity := entity }
  | none =>
    if Section.isReadOnly (sectionOf r) then
      match r with
      | .label l => .ok (s.label l)
      | .directive d => s.directive d
      | .instruction i =>
        .error (.defect
          { defect := .instructionInData (sectionOf r), line := i.line, construct := some i.text })
    else
      match r with
      | .label l =>
        if Section.resemblesText (sectionOf r) then .ok s
        else .ok { s with index := { s.index with writable := l.name :: s.index.writable } }
      | _ => .ok s

/-- The index of a unit. -/
def ofRecords (records : List Record) : Except Fault DataIndex :=
  (records.foldlM State.record {}).map (·.index)

/-- The labels of all blobs in the order in which they first occur. -/
def symbols (x : DataIndex) : List String :=
  (x.blobs.reverse.flatMap fun b => b.labels.reverse).eraseDups

/-- The labels of writable data in alphabetical order. -/
def writableSymbols (x : DataIndex) : List String :=
  (x.writable.mergeSort fun a b => a ≤ b).eraseDups

/-- The blob that a label names; of several the last. -/
def find? (x : DataIndex) (symbol : String) : Option Blob :=
  (x.blobs.find? fun b => b.labels.contains symbol).map (·.blob)

/-- The word for a symbol in diagnostics; an address may lack one. -/
def symbolText (symbol : Option String) : String := symbol.getD "None"

/-- The blob of a symbol, or why there is none. -/
def lookup (x : DataIndex) (symbol : Option String) : Except Defect Blob :=
  let name := symbolText symbol
  match symbol.bind x.find? with
  | none =>
    if (symbol.map x.writable.contains).getD false then .error (.notReadOnly name)
    else .error (.dataMissing name)
  | some b =>
    match b.problem with
    | some reason => .error (.dataUndecodable name reason)
    | none => if b.data.isEmpty then .error (.dataEmpty name) else .ok b

/-- `lookup` on behalf of an instruction of a function. -/
def lookupFor (x : DataIndex) (symbol : Option String) (function : Option String)
    (line : Option Nat) : Except Diagnostic Blob :=
  (x.lookup symbol).mapError fun d =>
    { defect := d, function := function, line := line, construct := symbol }

end DataIndex

end AsmBridge
