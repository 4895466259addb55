import AsmBridge.Text.Scan

/-!
# Paths

A path names a file by the folders on the way to it. The way begins in the working folder, or in
the root if the path begins with a slash; a point stays in a folder and two points go back to the
one before, which may lead out of the working folder.
-/

namespace AsmBridge

/-- Why a path does not lead to a file. -/
inductive PathError
  | missing
  /-- It leads to a folder. -/
  | folder
  /-- It goes on behind a file. -/
  | behindFile
  | tooLong
  /-- It holds the null character. -/
  | nullCharacter
deriving DecidableEq, Repr

/-- The wording of an error. -/
def PathError.message : PathError → String
  | .missing => "no such file"
  | .folder => "a folder is no file"
  | .behindFile => "a file is no folder"
  | .tooLong => "the name of a file is too long"
  | .nullCharacter => "the name of a file holds a null character"

/-- A folder by the names on the way to it, last first. On a way from the working folder the first
names may be two points. -/
structure Folder where
  fromRoot : Bool := false
  names : List String := []
deriving DecidableEq, Repr

namespace Folder

/-- The folder before. The root has none and stands for it. -/
def parent (f : Folder) : Folder :=
  match f.names with
  | name :: rest =>
    if name == ".." then { f with names := ".." :: name :: rest } else { f with names := rest }
  | [] => if f.fromRoot then f else { f with names := [".."] }

/-- An entry of the folder. -/
def child (f : Folder) (name : String) : Folder := { f with names := name :: f.names }

/-- The folder behind one more part of a path. -/
def enter (f : Folder) (part : String) : Folder :=
  if part == "." then f else if part == ".." then f.parent else f.child part

/-- The shortest path to the folder. -/
def path (f : Folder) : String :=
  (if f.fromRoot then "/" else "") ++ String.intercalate "/" f.names.reverse

/-- The folder lies on every way: the root, the working folder, or one before it. -/
def isGiven (f : Folder) : Bool :=
  if f.fromRoot then f.names.isEmpty else f.names.all (· == "..")

end Folder

/-- A path by its parts. -/
structure Path where
  start : Folder
  /-- What stands between slashes. -/
  parts : List String
  /-- A slash is at the end. -/
  endsInSlash : Bool
deriving DecidableEq, Repr

namespace Path

/-- The path that a text gives. -/
def ofText (s : String) : Path :=
  let cs := s.toList
  { start := { fromRoot := cs.head? == some '/' }
    parts := ((cs.splitOn '/').filter (!·.isEmpty)).map String.ofList
    endsInSlash := cs.getLast? == some '/' }

/-- The folder that the path leads to if all its parts are folders. -/
def target (p : Path) : Folder := p.parts.foldl Folder.enter p.start

/-- The folders on the way to the last part. -/
def way (p : Path) : List Folder :=
  (List.range p.parts.length).map fun n => (p.parts.take n).foldl Folder.enter p.start

end Path

end AsmBridge
