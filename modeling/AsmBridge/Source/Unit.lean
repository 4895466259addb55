import AsmBridge.Source.Instruction
import AsmBridge.Data.Directive

/-!
# Reading a unit

A unit is read line by line. A line holds any number of labels and then a directive or an
instruction; a number sign outside of string literals begins a comment. The directives that switch
sections are followed, with a stack for nested switches and the memory of the previous section.
-/

namespace AsmBridge.Source

/-- Where in a line the comment is looked for. -/
structure QuoteState where
  quoted : Bool := false
  escaped : Bool := false

/-- The state behind one more character. -/
def QuoteState.step (q : QuoteState) (c : Char) : QuoteState :=
  if q.escaped then { q with escaped := false }
  else if c == '\\' && q.quoted then { q with escaped := true }
  else if c == '"' then { q with quoted := !q.quoted }
  else q

/-- The statement of a line and the text behind the number sign, if a comment begins. -/
def splitComment (q : QuoteState) : List Char → List Char × Option (List Char)
  | [] => ([], none)
  | c :: rest =>
    if c == '#' && !q.quoted && !q.escaped then ([], some rest)
    else
      let (statement, comment) := splitComment (q.step c) rest
      (c :: statement, comment)

/-- The statement of a line and its comment, if that is more than blanks. -/
def stripComment (line : List Char) : List Char × Option String :=
  let (statement, comment) := splitComment {} line
  (statement, comment.bind fun c =>
    let t := Text.trim c
    if t.isEmpty then none else some (String.ofList t))

/-- A label at the front of a line, with a colon that no second one follows, and the rest of the
line. -/
def label? (s : List Char) : Option (String × List Char) :=
  match Text.trimLeft s with
  | [] => none
  | c :: more =>
    if !Text.isSymbolStart c then none
    else
      let name := c :: more.takeWhile Text.isSymbolRest
      match Text.trimLeft (more.dropWhile Text.isSymbolRest) with
      | ':' :: ':' :: _ => none
      | ':' :: rest => some (String.ofList name, rest)
      | _ => none

theorem length_trim_le (s : List Char) : (Text.trim s).length ≤ s.length := by
  have hright : (Text.trim s).length ≤ (Text.trimLeft s).length := by
    simpa [Text.trim, Text.trimRight] using
      (List.dropWhile_suffix Text.isBlank (l := (Text.trimLeft s).reverse)).length_le
  exact Nat.le_trans hright (List.dropWhile_suffix Text.isBlank).length_le

/-- What follows a label is shorter than the line. -/
theorem label?_shorter {s rest : List Char} {name : String} (h : label? s = some (name, rest)) :
    rest.length < s.length := by
  unfold label? at h
  split at h
  · simp at h
  · rename_i c more hs
    have h1 : (Text.trimLeft s).length ≤ s.length := (List.dropWhile_suffix Text.isBlank).length_le
    have h2 : (more.dropWhile Text.isSymbolRest).length ≤ more.length :=
      (List.dropWhile_suffix Text.isSymbolRest).length_le
    have h3 : (Text.trimLeft (more.dropWhile Text.isSymbolRest)).length ≤
        (more.dropWhile Text.isSymbolRest).length := (List.dropWhile_suffix Text.isBlank).length_le
    rw [hs, List.length_cons] at h1
    split at h
    · simp at h
    · dsimp only at h
      split at h
      · simp at h
      · rename_i r _ hr
        simp only [Option.some.injEq, Prod.mk.injEq] at h
        rw [hr] at h3
        simp only [List.length_cons, h.2] at h3
        omega
      · simp at h

/-- The labels at the front of a line and what remains of it. -/
def labels (s : List Char) : List String × List Char :=
  match h : label? s with
  | none => ([], s)
  | some (name, rest) =>
    have : (Text.trim rest).length < s.length := by
      have := label?_shorter h
      have := length_trim_le rest
      omega
    let (names, tail) := labels (Text.trim rest)
    (name :: names, tail)
termination_by s.length

/-- How far a unit is read. -/
structure State where
  /-- The records, last first. -/
  records : List Record := []
  sect : String := Section.text
  previous : Option String := none
  /-- The sections to return to, innermost first. -/
  stack : List String := []
  /-- The last label. -/
  after : Option String := none
deriving Repr

/-- The directives that compilers write around code. They are recorded and say nothing about the
code; a name that begins like one of them is one of them. -/
def surroundings : List String := [
  ".cfi_", ".file", ".ident", ".globl", ".global", ".local", ".weak", ".hidden", ".protected",
  ".internal", ".private_extern", ".alt_entry", ".no_dead_strip", ".type", ".size", ".p2align",
  ".align", ".balign", ".section", ".text", ".data", ".bss", ".pushsection", ".popsection",
  ".previous", ".addrsig", ".intel_syntax", ".loc", ".build_version", ".macosx_version_min",
  ".subsections_via_symbols", ".end", ".set", ".comm", ".lcomm", ".linker_option", ".literal",
  ".const", ".cstring", ".zerofill", ".def", ".scl", ".seh_"]

/-- A directive of this name may stand among instructions. -/
def isKnown (name : String) : Bool :=
  Text.startsWithAny surroundings name || Directive.isDataName name

/-- The text without double quotes at either end. -/
def unquoted (s : String) : String :=
  let t := s.toList.dropWhile (· == '"')
  String.ofList (t.reverse.dropWhile (· == '"')).reverse

/-- The section that a directive names, with its segment if the name is one. -/
def sectionName (d : Directive) : Except Fault String :=
  match d.argv with
  | [] => .error (defectAt d.line d.text .sectionNameMissing)
  | first :: rest =>
    let name := unquoted first
    match rest with
    | second :: _ => .ok (if Section.isSegmented name then name ++ "," ++ second else name)
    | [] => .ok name

/-- The state in another section. -/
def State.enter (s : State) (sect : String) : State :=
  { s with previous := some s.sect, sect := sect }

/-- The state behind a switch of sections; `source` is the line of the directive. -/
def State.switch (s : State) (d : Directive) (source : String) : Except Fault State :=
  if [".text", ".data", ".bss"].contains d.name then .ok (s.enter d.name)
  else if d.name == ".section" then (sectionName d).map s.enter
  else if d.name == ".pushsection" then
    (sectionName d).map fun sect => { s.enter sect with stack := s.sect :: s.stack }
  else if d.name == ".popsection" then
    match s.stack with
    | sect :: rest => .ok { s.enter sect with stack := rest }
    | [] => .error (defectAt d.line source .popWithoutPush)
  else if d.name == ".previous" then
    match s.previous with
    | some sect => .ok (s.enter sect)
    | none => .ok s
  else .ok s

/-- The name of a directive and its arguments. -/
def splitDirective? (s : List Char) : Option (String × String) :=
  let name := s.takeWhile fun c => !Text.isBlank c
  if name.length < 2 then none
  else some (String.ofList name,
    String.ofList (Text.trim (s.dropWhile fun c => !Text.isBlank c)))

/-- A directive of a line. -/
def State.directive (s : State) (line : Nat) (source : String) (statement : List Char) :
    Except Fault State :=
  match splitDirective? statement with
  | none => .error (.stop .directiveNameless)
  | some (name, args) => do
    let d : Directive := { name := name, args := args, line := some line, sect := some s.sect }
    let s ← s.switch d source
    if Section.isText s.sect && !isKnown name then
      throw (defectAt (some line) name (.unknownDirective name s.sect))
    return { s with records := .directive { d with sect := some s.sect } :: s.records }

/-- An instruction of a line. -/
def State.instruction (s : State) (line : Nat) (comment : Option String) (statement : List Char) :
    Except Fault State := do
  let i ← readInstruction (some line) statement
  let i := { i with comment := comment, after := s.after, sect := some s.sect }
  return { s with records := .instruction i :: s.records }

/-- A label of a line. -/
def State.label (s : State) (line : Nat) (name : String) : State :=
  { s with
    records := .label { name := name, line := some line, sect := some s.sect } :: s.records
    after := some name }

/-- One line more. -/
def State.line (s : State) (p : List Char × Nat) : Except Fault State :=
  let (source, line) := p
  let (statement, comment) := stripComment source
  let (names, rest) := labels (Text.trim statement)
  let s := names.foldl (·.label line ·) s
  match rest with
  | [] => .ok s
  | '.' :: _ => s.directive line (String.ofList (Text.trim source)) rest
  | _ => s.instruction line comment rest

/-- The records of a unit. -/
def readUnit (text : String) : Except Fault (List Record) :=
  ((((Text.chars text).splitOn '\n').zipIdx 1).foldlM State.line {}).map (·.records.reverse)

end AsmBridge.Source
