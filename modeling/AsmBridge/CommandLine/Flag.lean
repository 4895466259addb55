import AsmBridge.Text.Scan

/-!
# Flags of the command line

A flag has a long name, which two dashes announce and which may be cut short as long as no other
name begins alike, and most have a letter, which one dash announces.
-/

namespace AsmBridge

/-- A flag of the command line. -/
inductive Flag
  | help
  /-- The file of Go declarations that gives the signatures. -/
  | prototypes
  | stripComments
  | compact
  | keepDirectives
  | format
  /-- The file to which Go declarations are written. -/
  | stubs
  /-- The package of those declarations. -/
  | package
  /-- The package of the stubs of helpers. -/
  | stubPackage
  | jobs
  | verbose
  | version
deriving DecidableEq, Repr

namespace Flag

/-- Every flag. -/
def all : List Flag := [
  .help, .prototypes, .stripComments, .compact, .keepDirectives, .format, .stubs, .package,
  .stubPackage, .jobs, .verbose, .version]

/-- The long name with its dashes. -/
def longName : Flag → String
  | .help => "--help"
  | .prototypes => "--prototypes"
  | .stripComments => "--strip-comments"
  | .compact => "--compact"
  | .keepDirectives => "--keep-directives"
  | .format => "--format"
  | .stubs => "--stubs"
  | .package => "--package"
  | .stubPackage => "--stub-package"
  | .jobs => "--jobs"
  | .verbose => "--verbose"
  | .version => "--version"

/-- The letter, if the flag has one. -/
def letter? : Flag → Option Char
  | .help => some 'h'
  | .prototypes => some 'p'
  | .stripComments => some 's'
  | .compact => some 'c'
  | .keepDirectives => some 'd'
  | .format => some 'f'
  | .jobs => some 'j'
  | .verbose => some 'v'
  | _ => none

/-- A value follows the flag. -/
def takesValue : Flag → Bool
  | .prototypes => true
  | .stubs => true
  | .package => true
  | .stubPackage => true
  | .jobs => true
  | _ => false

/-- The flag of a letter. -/
def ofLetter? (c : Char) : Option Flag := all.find? fun f => f.letter? == some c

/-- The flags that a long name may stand for: the one of that name, or else all whose names begin
with it. -/
def ofLongName (s : String) : List Flag :=
  match all.find? fun f => f.longName == s with
  | some f => [f]
  | none => all.filter fun f => Text.startsWith s f.longName

end Flag

end AsmBridge
