import AsmBridge.CommandLine.Token

/-!
# Reading the command line

The command line names the file to convert and the file to write, and sets flags. Flags take
effect in their order; asking for help or for the version ends the reading at once, before anything
behind it is judged. The mark `--`, behind which all is a value, stands for no value where it is
itself one.
-/

namespace AsmBridge

/-- What the command line asks for. -/
structure Settings where
  /-- The file to convert. -/
  input : String := ""
  /-- The file to write. -/
  output : Option String := none
  /-- The file of Go declarations, none if empty. -/
  prototypes : String := ""
  stripComments : Bool := false
  compact : Bool := false
  keepDirectives : Bool := false
  /-- The file to write Go declarations to, none if empty. -/
  stubs : String := ""
  package : String := "main"
  stubPackage : String := ""
  /-- How many functions may be converted at a time; the number may be left open. -/
  jobs : Option Int := some 1
deriving DecidableEq, Repr

/-- How the command line itself ends the program. -/
inductive UsageEnd
  | help
  | version
  | misuse
deriving DecidableEq, Repr

/-- The exit status: asking for help is no failure. -/
def UsageEnd.status : UsageEnd → Nat
  | .misuse => 2
  | _ => 0

namespace Settings

/-- The settings with a flag set that takes no value. Formatting and reports of progress change
nothing here. -/
def setFlag (s : Settings) : Flag → Except UsageEnd Settings
  | .help => .error .help
  | .version => .error .version
  | .stripComments => .ok { s with stripComments := true }
  | .compact => .ok { s with compact := true }
  | .keepDirectives => .ok { s with keepDirectives := true }
  | _ => .ok s

/-- The value, unless it is the mark. -/
def value? (s : String) : Option String := if s == "--" then none else some s

/-- What is written for a name that has no value: an empty list. -/
def noValue : String := "[]"

/-- The settings with the value of a flag. The number of jobs must be a number. -/
def setValue (s : Settings) (f : Flag) (value : String) : Except UsageEnd Settings :=
  match f with
  | .prototypes => .ok { s with prototypes := (value? value).getD "" }
  | .stubs => .ok { s with stubs := (value? value).getD "" }
  | .package => .ok { s with package := (value? value).getD noValue }
  | .stubPackage => .ok { s with stubPackage := (value? value).getD noValue }
  | .jobs =>
    match (value? value).map fun v => Text.integer? .decimal v.toList with
    | none => .ok { s with jobs := none }
    | some (some n) => .ok { s with jobs := some n }
    | some none => .error .misuse
  | _ => .ok s

end Settings

/-- How far the command line is read. -/
structure ArgumentState where
  settings : Settings := {}
  /-- The values that are no flag's, in order. The mark behind which all is a value stands for
  none. -/
  paths : List (Option String) := []
  /-- There was an argument too many, or an unknown one. -/
  surplus : Bool := false
  /-- The last argument was taken as a path. -/
  tookPath : Bool := false
deriving Repr

namespace ArgumentState

/-- The state with a value that is no flag's; two are taken. -/
def take (s : ArgumentState) (path : Option String) : ArgumentState :=
  if s.paths.length < 2 then { s with paths := s.paths ++ [path], tookPath := true }
  else { s with surplus := true, tookPath := false }

/-- The state with other settings. -/
def withSettings (s : ArgumentState) (t : Settings) : ArgumentState :=
  { s with settings := t, tookPath := false }

/-- The state behind arguments in front of the mark. -/
def readTokens (s : ArgumentState) : List Token → Except UsageEnd ArgumentState
  | [] => .ok s
  | .value v :: rest => readTokens (s.take (some v)) rest
  | .unknown :: rest => readTokens { s with surplus := true, tookPath := false } rest
  | .malformed :: _ => .error .misuse
  | .flags plain (.open f) :: .value v :: rest => do
    let t ← plain.foldlM Settings.setFlag s.settings
    readTokens (s.withSettings (← t.setValue f v)) rest
  | .flags _ (.open _) :: _ => .error .misuse
  | .flags plain (.joined f v) :: rest => do
    let t ← plain.foldlM Settings.setFlag s.settings
    readTokens (s.withSettings (← t.setValue f v)) rest
  | .flags plain .none :: rest => do
    let t ← plain.foldlM Settings.setFlag s.settings
    readTokens (s.withSettings t) rest

/-- The state behind the values that follow the mark. The mark belongs to the value before it or
else to the one behind it; a second mark is taken for the value only next to the first. -/
def readRest (s : ArgumentState) (values : List String) : ArgumentState :=
  let path := Settings.value?
  match s.tookPath, values with
  | true, values => values.foldl (fun s v => s.take (path v)) s
  | false, v :: rest => rest.foldl (fun s v => s.take (path v)) (s.take (some v))
  | false, [] => { s with surplus := true }

/-- The settings when all arguments are read. -/
def finish (s : ArgumentState) : Except UsageEnd Settings :=
  match s.paths, s.surplus with
  | [some input, output], false => .ok { s.settings with input := input, output := output }
  | _, _ => .error .misuse

end ArgumentState

/-- The arguments before the mark behind which all is a value, and those behind it. -/
def splitAtMark : List String → List String × Option (List String)
  | [] => ([], none)
  | s :: rest =>
    if s == "--" then ([], some rest)
    else
      let (front, back) := splitAtMark rest
      (s :: front, back)

/-- The settings that the arguments give. -/
def Settings.read (args : List String) : Except UsageEnd Settings :=
  let (front, back) := splitAtMark args
  match front.mapM Token.read? with
  | none => .error .misuse
  | some tokens => do
    let s ← ArgumentState.readTokens {} tokens
    match back with
    | none => s.finish
    | some values => (s.readRest values).finish

end AsmBridge
