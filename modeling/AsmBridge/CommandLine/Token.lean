import AsmBridge.CommandLine.Flag
import AsmBridge.Text.Numeral

/-!
# Arguments of the command line

Each argument is by itself a value, a group of flags, or neither. A letter takes as its value what
is joined to it, and other letters may follow one that takes none; a long name takes a value behind
an equals sign, and so may the first letter.
-/

namespace AsmBridge

/-- The last flag of a group, if it takes a value. -/
inductive Valued
  | none
  /-- The value is part of the argument. -/
  | joined (f : Flag) (value : String)
  /-- The value is the next argument. -/
  | open (f : Flag)
deriving DecidableEq, Repr

/-- An argument of the command line. -/
inductive Token
  | value (s : String)
  /-- Flags without a value and then possibly one with a value. -/
  | flags (plain : List Flag) (last : Valued)
  /-- Something that is no flag is joined to a flag that takes no value. -/
  | malformed
  /-- It looks like a flag and is none. -/
  | unknown
deriving DecidableEq, Repr

namespace Token

/-- The group with another flag before it. -/
def after (f : Flag) : Token → Token
  | .flags plain last => .flags (f :: plain) last
  | t => t

/-- A flag alone. -/
def alone (f : Flag) : Token := if f.takesValue then .flags [] (.open f) else .flags [f] .none

/-- The flags of letters, the first of which has been read. -/
def ofLetters (f : Flag) : List Char → Token
  | [] => alone f
  | c :: rest =>
    if f.takesValue then .flags [] (.joined f (String.ofList (c :: rest)))
    else
      match Flag.ofLetter? c with
      | some g => after f (ofLetters g rest)
      | none => .malformed

/-- A flag with the text behind its equals sign, the value or, behind a letter, more letters. -/
def ofEquation (f : Flag) (letter : Bool) (joined : List Char) : Token :=
  if f.takesValue then .flags [] (.joined f (String.ofList joined))
  else if letter && !joined.isEmpty then ofLetters f joined
  else .malformed

/-- A negative number, which is a value; a final line break is allowed. -/
def isNegativeNumber (s : List Char) : Bool :=
  let isDigit := fun c => (Text.digit? c).isSome
  match s with
  | '-' :: body =>
    let body := if body.getLast? == some '\n' then body.dropLast else body
    match Text.cutAt '.' body with
    | (whole, some part) => whole.all isDigit && Text.someAll isDigit part
    | (whole, none) => Text.someAll isDigit whole
  | _ => false

/-- An argument with a dash at its front that names no flag. -/
def ofUnnamed (s : String) : Token :=
  if isNegativeNumber s.toList || s.toList.contains ' ' then .value s else .unknown

/-- The token of an argument; none if it may be cut short from several long names. -/
def read? (s : String) : Option Token :=
  match s.toList with
  | '-' :: '-' :: _ =>
    let (name, joined) := Text.cutAt '=' s.toList
    match Flag.ofLongName (String.ofList name), joined with
    | [f], some text => some (ofEquation f false text)
    | [f], none => some (alone f)
    | [], _ => some (ofUnnamed s)
    | _, _ => none
  | '-' :: c :: rest =>
    match Flag.ofLetter? c, rest with
    | some f, '=' :: text => some (ofEquation f true text)
    | some f, rest => some (ofLetters f rest)
    | none, _ => some (ofUnnamed s)
  | _ => some (.value s)

end Token

end AsmBridge
