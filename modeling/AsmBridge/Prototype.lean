import AsmBridge.Signature
import AsmBridge.Text.Scan

/-!
# Reading Go declarations

Function declarations are found at the starts of lines of a Go source; all else is passed over. A
declaration gives a name, parameters in parentheses, and possibly a result, which is a bare type or
again a list in parentheses. Parameters may share the type of a later one.
-/

namespace AsmBridge

/-- The parts of a parameter list with their words: the text between commas, without blank
parts. -/
def parameterParts (s : List Char) : List (List Char) :=
  ((s.splitOn ',').map Text.trim).filter (!·.isEmpty)

/-- The parameters of the parts of a list in which some part has a type of its own. `pending` are
the names that wait for a type, last first. -/
def typedParameters (pending : List String) :
    List (List Char) → Except Stop (List (String × String))
  | [] => if pending.isEmpty then .ok [] else .error (.parametersUntyped pending.reverse)
  | part :: rest =>
    match (Text.words part).map String.ofList with
    | [] => typedParameters pending rest
    | [name] => typedParameters (name :: pending) rest
    | name :: kind =>
      let kind := String.intercalate " " kind
      (typedParameters [] rest).map
        (((name :: pending).reverse.map fun n => (n, kind)) ++ ·)

/-- The names and types of a parameter list. Where no part has more than one word the words are
types, and the parameters are named by their positions. -/
def readParameters (s : List Char) : Except Stop (List (String × String)) :=
  let parts := parameterParts s
  if parts.any fun p => 1 < (Text.words p).length then typedParameters [] parts
  else .ok (parts.zipIdx.map fun p => ("_" ++ toString p.2, String.ofList p.1))

/-- A declaration as it stands in the source. -/
structure RawDeclaration where
  name : String
  params : List Char
  /-- The text of the result, parentheses included. -/
  result : Option (List Char)
  /-- The text between the parentheses of the result. -/
  resultList : Option (List Char)
deriving DecidableEq, Repr

namespace RawDeclaration

/-- A character of a result that is a bare type. -/
def isTypeChar (c : Char) : Bool := !Text.isBlank c && c != '{' && c != '/'

/-- The result at the front of a text, its list if it is one, and the rest. -/
def result? (s : List Char) : Option (List Char) × Option (List Char) × List Char :=
  let bare :=
    match s.takeWhile isTypeChar with
    | [] => (none, none, s)
    | t => (some t, none, s.dropWhile isTypeChar)
  match s with
  | '(' :: rest =>
    match Text.cutAt ')' rest with
    | (inner, some tail) => (some ('(' :: inner ++ [')']), some inner, tail)
    | (_, none) => bare
  | _ => bare

/-- What follows the blanks at the front, of which there is at least one. -/
def afterBlanks? : List Char → Option (List Char)
  | c :: rest => if Text.isBlank c then some (Text.trimLeft rest) else none
  | [] => none

/-- The declaration at the front of a text and the rest of the text. -/
def read? (s : List Char) : Option (RawDeclaration × List Char) := do
  let s ← Text.after? "func" (Text.trimLeft s)
  let s ← afterBlanks? s
  let name := s.takeWhile Text.isWord
  if name.isEmpty then none
  else
    match Text.trimLeft (s.dropWhile Text.isWord) with
    | '(' :: s =>
      let (params, rest) := Text.cutAt ')' s
      let rest ← rest
      let (result, resultList, tail) := result? (rest.dropWhile fun c => c == ' ' || c == '\t')
      some ({ name := String.ofList name, params, result, resultList }, tail)
    | _ => none

/-- The declarations of a text, each with its source; `lineStart` says whether a line begins
here. -/
def readAll (lineStart : Bool) (s : List Char) : List (RawDeclaration × String) :=
  match s with
  | [] => []
  | c :: rest =>
    match if lineStart then read? (c :: rest) else none with
    | some (d, tail) =>
      let length := (c :: rest).length - tail.length
      (d, String.ofList ((c :: rest).take length)) :: readAll false (rest.drop (length - 1))
    | none => readAll (c == '\n') rest
termination_by s.length
decreasing_by
  · simp only [List.length_drop, List.length_cons]
    omega
  · simp

/-- A failure to read the parameters of a declaration. -/
def untyped (name source : String) : Stop → Fault
  | .parametersUntyped names =>
    .defect { defect := .untypedParameters name names, function := some name,
              construct := some source }
  | s => .stop s

/-- The results of a declaration. -/
def results (d : RawDeclaration) : Except Stop (List (String × String)) :=
  match d.resultList, d.result with
  | some inner, _ => readParameters inner
  | none, some t => .ok [("ret", String.ofList t)]
  | none, none => .ok []

/-- The signature of a declaration; `source` is its text. A result without a name is called
`ret`. -/
def signature (d : RawDeclaration) (source : String) : Except Fault Signature := do
  let params ← (readParameters d.params).mapError (untyped d.name source)
  let results ← d.results.mapError (untyped d.name source)
  let args := params.map fun p => Argument.mk p.1 p.2
  match results with
  | [] => return { name := d.name, args := args }
  | [r] =>
    let name := if Text.startsWith "_" r.1 then "ret" else r.1
    return { name := d.name, args := args, result := some ⟨name, r.2⟩ }
  | rs =>
    throw (.defect
      { defect := .manyResults d.name rs.length, function := some d.name,
        construct := d.result.map String.ofList })

end RawDeclaration

/-- The signatures of a Go source by their names, in the order in which these first occur. -/
structure Prototypes where
  signatures : List Signature := []
deriving DecidableEq, Repr

namespace Prototypes

/-- The signature of a name. -/
def find? (p : Prototypes) (name : String) : Option Signature :=
  p.signatures.find? (·.name == name)

/-- The list with a signature, which takes the place of an older one of its name. -/
def insertInto (s : Signature) : List Signature → List Signature
  | [] => [s]
  | t :: rest => if t.name == s.name then s :: rest else t :: insertInto s rest

/-- The prototypes with one more signature. -/
def insert (p : Prototypes) (s : Signature) : Prototypes := ⟨insertInto s p.signatures⟩

/-- The prototypes of a Go source. -/
def read (source : String) : Except Fault Prototypes :=
  (RawDeclaration.readAll true (Text.chars source)).foldlM
    (fun p d => (d.1.signature d.2).map p.insert) {}

end Prototypes

end AsmBridge
