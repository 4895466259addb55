import AsmBridge.CommandLine.Run

/-!
# The command

The files that the arguments name are read, the program is run on them, and the files that it
changed are written.
-/

namespace AsmBridge

/-- The text of a file, if it can be read. -/
def readFile? (name : String) : IO (Option String) := do
  try
    return some (← IO.FS.readFile name)
  catch _ =>
    return none

/-- The files that the settings name, as far as they can be read, and the folders on the way to
them and to those to be written. -/
def openDirectory (s : Settings) : IO Directory := do
  let files ← [s.input, s.prototypes].filterMapM fun name => do
    return (← readFile? name).map fun text => ((Path.ofText name).target.path, text)
  let names := [s.input, s.prototypes, s.stubs] ++ s.output.toList
  return { files, folders := names.flatMap fun name => (Path.ofText name).way.map (·.path) }

/-- What is said when the program gives up. -/
def failureText : Fault → String
  | .defect d => d.text none
  | .stop s => s.message?.getD "the input cannot be converted"
  | .encoding e => e.message

/-- The usage of the command. -/
def usageText : String :=
  "usage: c2plan9 [flags] input output\n" ++
    String.join (Flag.all.map fun f =>
      "  " ++ ((f.letter?.map fun c => "-" ++ c.toString ++ ", ").getD "") ++ f.longName ++
        (if f.takesValue then " VALUE" else "") ++ "\n")

/-- Says on the way out what there is to say of a given end of the program. -/
def reportEnding : Ending → IO Unit
  | .usage .version => IO.println "c2plan9 0.1.0"
  | .usage .help => IO.print usageText
  | .usage .misuse => IO.eprint usageText
  | .done => pure ()
  | .rejected report => IO.eprintln report
  | .failed f => IO.eprintln (failureText f)
  | .unreachable e => IO.eprintln e.message
  | .outputUnnamed => IO.eprintln "the file to write has no name"

end AsmBridge

open AsmBridge in
/-- The command: its arguments are the flags and the two files. -/
def main (args : List String) : IO UInt32 := do
  let directory ←
    match Settings.read args with
    | .ok s => openDirectory s
    | .error _ => pure {}
  let outcome := run args directory
  for (name, text) in Directory.changes directory outcome.directory do
    IO.FS.writeFile name text
  reportEnding outcome.ending
  return outcome.ending.status.toUInt32
