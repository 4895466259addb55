import AsmBridge.CommandLine.Directory
import AsmBridge.CommandLine.Settings
import AsmBridge.Stubs

/-!
# The program

From the arguments and the files of a directory follow the end of the program and the files that it
leaves. Files are written only when the conversion is complete: the listing, and then the Go
declarations if they are asked for.
-/

namespace AsmBridge

/-- How the program ends. -/
inductive Ending
  /-- At the command line itself. -/
  | usage (e : UsageEnd)
  /-- The conversion is written. -/
  | done
  /-- The input or the declarations have defects; `report` shows them. -/
  | rejected (report : String)
  /-- It was given up. -/
  | failed (f : Fault)
  /-- A file cannot be read or written where a path leads to. -/
  | unreachable (e : PathError)
  /-- The file to write has no name. -/
  | outputUnnamed
deriving DecidableEq, Repr

namespace Ending

/-- The status that the program decides on. Where an error stops it, it decides on none. -/
def status? : Ending → Option Nat
  | .usage e => some e.status
  | .done => some 0
  | .rejected _ => some 1
  | .failed _ | .unreachable _ | .outputUnnamed => none

/-- The exit status: the one that is decided on, and one behind an error. -/
def status (e : Ending) : Nat := e.status?.getD 1

/-- What is written to standard error, for an end behind the command line. -/
def diagnostics? : Ending → Option String
  | .done => some ""
  | .rejected report => some (report ++ "\n")
  | _ => none

end Ending

/-- The end of the program and the directory that it leaves. -/
structure Outcome where
  ending : Ending
  directory : Directory

namespace Settings

/-- The prototypes that the settings name; without a file there are none. -/
def readPrototypes (s : Settings) (d : Directory) : Except Ending Prototypes :=
  if s.prototypes.isEmpty then .ok {}
  else
    match d.read s.prototypes with
    | .error e => .error (.unreachable e)
    | .ok source =>
      (Prototypes.read source).mapError fun
        | .defect diagnostic => .rejected (diagnostic.text s.prototypes)
        | f => .failed f

/-- The options of the conversion. -/
def options (s : Settings) (prototypes : Prototypes) : Options :=
  { stripComments := s.stripComments
    compact := s.compact
    keepDirectives := s.keepDirectives
    stubPackage := s.stubPackage
    prototypes := prototypes
    jobs := s.jobs
    file := some s.input }

/-- The end of the program for a unit without a conversion. -/
def rejection : Failure → Ending
  | .defects file ds => .rejected (report file ds)
  | .fault f => .failed f

/-- The conversion of the input. -/
def conversion (s : Settings) (d : Directory) : Except Ending ConvertedUnit :=
  match d.read s.input with
  | .error e => .error (.unreachable e)
  | .ok text => do
    let prototypes ← s.readPrototypes d
    (convert (s.options prototypes) text).mapError rejection

/-- The outcome of writing the Go declarations, if they are asked for. -/
def writeStubs (s : Settings) (u : ConvertedUnit) (d : Directory) : Outcome :=
  if s.stubs.isEmpty then ⟨.done, d⟩
  else
    match d.save s.stubs (u.goDeclarations s.package) with
    | .ok d => ⟨.done, d⟩
    | .error e => ⟨.unreachable e, d⟩

/-- The outcome of writing the conversion. -/
def write (s : Settings) (u : ConvertedUnit) (d : Directory) : Outcome :=
  match s.output with
  | none => ⟨.outputUnnamed, d⟩
  | some name =>
    match d.save name u.text with
    | .ok d => s.writeStubs u d
    | .error e => ⟨.unreachable e, d⟩

end Settings

/-- The outcome of the program for its arguments in a directory. -/
def run (args : List String) (d : Directory) : Outcome :=
  match Settings.read args with
  | .error e => ⟨.usage e, d⟩
  | .ok s =>
    match s.conversion d with
    | .error e => ⟨e, d⟩
    | .ok u => s.write u d

end AsmBridge
