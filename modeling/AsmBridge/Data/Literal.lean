import AsmBridge.Fault

/-!
# String literals

The body of a string literal stands for bytes: each character for its code, and escapes for the
bytes they name by a letter, by up to three octal digits, or by any number of hexadecimal digits of
which the last two count.
-/

namespace AsmBridge

/-- Why the arguments of a data directive do not say what bytes to emit. -/
inductive DataError
  | integer (text : String)
  /-- An integer of so many digits, more than are read. -/
  | integerTooLong (digits : Nat)
  | decimal (text : String)
  | argumentMissing
  | escapeUnfinished
  | characterTooWide (c : Char)
  | stringExpected (text : String)
  | dataExpected (name : String)
  /-- The directive has no bytes and no wording either: the unit is given up. -/
  | stop (s : Stop)
deriving DecidableEq, Repr

namespace DataError

/-- The wording of an error in diagnostics. Of a text that is no integer at most 200 characters are
shown. -/
def reason : DataError → String
  | .integer text =>
    "invalid literal for int() with base 0: " ++
      String.ofList ((Text.quoteChars text.toList).take 200)
  | .integerTooLong digits => Text.tooLongText digits
  | .decimal text => "could not convert string to float: " ++ Text.quote text
  | .argumentMissing => "list index out of range"
  | .escapeUnfinished => "string index out of range"
  | .characterTooWide c =>
    "'latin-1' codec can't encode character '" ++ String.ofList (Text.escapeCode c) ++
      "' in position 0: ordinal not in range(256)"
  | .stringExpected text => "Expected string literal, got " ++ text
  | .dataExpected name => "Not a data directive: " ++ name
  | .stop s => s.message?.getD ""

end DataError

namespace Literal

/-- The bytes of the escapes that are a single letter or sign. -/
def letterEscapes : List (Char × UInt8) :=
  [('n', 10), ('t', 9), ('r', 13), ('b', 8), ('f', 12), ('\\', 92), ('"', 34), ('\'', 39)]

/-- The byte of a character. -/
def byte (c : Char) : Except DataError UInt8 :=
  if c.toNat < 256 then .ok (UInt8.ofNat c.toNat) else .error (.characterTooWide c)

/-- The value of digits. -/
def value (base : Nat) (ds : List Char) : Nat :=
  ds.foldl (fun n c => base * n + (Text.digitIn? base c).getD 0) 0

/-- The digits at the front of a text, at most `limit` of them. -/
def digitRun (base : Nat) : Nat → List Char → List Char
  | 0, _ => []
  | _, [] => []
  | limit + 1, c :: rest =>
    if (Text.digitIn? base c).isSome then c :: digitRun base limit rest else []

/-- The byte of an escape, given by the text behind the backslash, and the text that follows. -/
def escape (s : List Char) : Except DataError (UInt8 × List Char) :=
  match s with
  | [] => .error .escapeUnfinished
  | c :: rest =>
    match letterEscapes.lookup c with
    | some b => .ok (b, rest)
    | none =>
      if c == 'x' || c == 'X' then
        let ds := digitRun 16 rest.length rest
        if ds.isEmpty then .error (.stop .escapeEmpty)
        else .ok (UInt8.ofNat (value 16 ds), rest.drop ds.length)
      else if (Text.digitIn? 8 c).isSome then
        let ds := digitRun 8 3 (c :: rest)
        .ok (UInt8.ofNat (value 8 ds), rest.drop (ds.length - 1))
      else (byte c).map fun b => (b, rest)

/-- An escape is shorter than the text it is read from. -/
theorem escape_shorter {s rest : List Char} {b : UInt8} (h : escape s = .ok (b, rest)) :
    rest.length < s.length := by
  unfold escape at h
  split at h
  · simp at h
  · rename_i c t
    split at h
    · simp only [Except.ok.injEq, Prod.mk.injEq] at h
      simp [← h.2]
    · split at h
      · dsimp only at h
        split at h
        · simp at h
        · simp only [Except.ok.injEq, Prod.mk.injEq] at h
          simp only [← h.2, List.length_drop, List.length_cons]
          omega
      · split at h
        · simp only [Except.ok.injEq, Prod.mk.injEq] at h
          simp only [← h.2, List.length_drop, List.length_cons]
          omega
        · unfold byte at h
          split at h
          · simp only [Except.map, Except.ok.injEq, Prod.mk.injEq] at h
            simp [← h.2]
          · simp [Except.map] at h

/-- The bytes of the body of a literal. -/
def bytes (s : List Char) : Except DataError (List UInt8) :=
  match s with
  | [] => .ok []
  | c :: rest =>
    if c == '\\' then
      match h : escape rest with
      | .error e => .error e
      | .ok (b, more) =>
        have : more.length < rest.length := escape_shorter h
        (bytes more).map (b :: ·)
    else do
      let b ← byte c
      return b :: (← bytes rest)
termination_by s.length
decreasing_by
  all_goals
    simp only [List.length_cons]
    omega

end Literal

end AsmBridge
