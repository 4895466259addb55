import AsmBridge.CommandLine.Path

/-!
# Directories

The files that the program works on, as texts by their names, which are the shortest paths to them.
`find?_write` says what writing a file does to all files.
-/

namespace AsmBridge

namespace Text

/-- The text with every line break, of whatever custom, as a line feed. -/
def lineFeeds : List Char → List Char
  | [] => []
  | '\r' :: '\n' :: rest => '\n' :: lineFeeds rest
  | '\r' :: rest => '\n' :: lineFeeds rest
  | c :: rest => c :: lineFeeds rest

end Text

/-- The files of a directory and of its folders. -/
structure Directory where
  /-- Names and texts; of several files of one name the first counts. -/
  files : List (String × String) := []
  /-- The folders besides those that hold a file, by their shortest paths. -/
  folders : List String := []

namespace Directory

/-- The text of a file. -/
def find? (d : Directory) (name : String) : Option String := d.files.lookup name

/-- The directory with a file written. -/
def write (d : Directory) (name text : String) : Directory :=
  { d with files := (name, text) :: d.files }

/-- The folder is there. -/
def hasFolder (d : Directory) (f : Folder) : Bool :=
  f.isGiven || d.folders.contains f.path ||
    d.files.any fun file => Text.startsWith (f.path ++ "/") file.1

/-- The most bytes of a name. -/
def nameLimit : Nat := 255

/-- The most bytes of a path. -/
def pathLimit : Nat := 4095

/-- The entry of a folder under a name, which may not be too long. -/
def entry (f : Folder) (name : String) : Except PathError Folder :=
  if nameLimit < name.utf8ByteSize then .error .tooLong else .ok (f.enter name)

/-- The folder behind one more part of a path. -/
def enter (d : Directory) (f : Folder) (part : String) : Except PathError Folder := do
  let g ← entry f part
  if d.hasFolder g then return g
  else if (d.find? g.path).isSome then throw .behindFile
  else throw .missing

/-- The name of the file that a path leads to, whether it is there or not; its folder must be. -/
def locate (d : Directory) (path : String) : Except PathError String := do
  if path.toList.contains '\x00' then throw .nullCharacter
  if path.isEmpty then throw .missing
  if pathLimit < path.utf8ByteSize then throw .tooLong
  let p := Path.ofText path
  let f ← p.parts.dropLast.foldlM d.enter p.start
  let g ← (p.parts.getLast?.map (entry f)).getD (.ok f)
  if d.hasFolder g then throw .folder
  return g.path

/-- The text of the file that a path leads to, as it is read. -/
def read (d : Directory) (path : String) : Except PathError String := do
  match d.find? (← d.locate path) with
  | none => throw .missing
  | some text =>
    if (Path.ofText path).endsInSlash then throw .behindFile
    return String.ofList (Text.lineFeeds (Text.chars text))

/-- The directory with a file written where a path leads to. -/
def save (d : Directory) (path text : String) : Except PathError Directory := do
  let name ← d.locate path
  if (Path.ofText path).endsInSlash then throw .folder
  return d.write name text

/-- The names of the files, each once, in alphabetical order. -/
def names (d : Directory) : List String :=
  ((d.files.map (·.1)).mergeSort fun a b => a ≤ b).eraseDups

/-- The files that `before` lacks or has with another text. -/
def changes (before d : Directory) : List (String × String) :=
  d.names.filterMap fun name =>
    match d.find? name with
    | some text => if before.find? name = some text then none else some (name, text)
    | none => none

/-- Writing a file gives its name that text and leaves all other files alone. -/
theorem find?_write (d : Directory) (name text other : String) :
    (d.write name text).find? other = if other = name then some text else d.find? other := by
  unfold find? write
  by_cases h : other = name
  · simp [h]
  · have hb : (other == name) = false := by simpa using h
    simp [List.lookup_cons, h, hb]

end Directory

end AsmBridge
