import AsmBridge.Text.Class

/-!
# Cutting text

Trimming, splitting and matching of character lists, the steps from which the readers of source
lines, operands and declarations are built. `wordsFrom_ne_nil` says that no word is empty.
-/

namespace AsmBridge.Text

/-- The text without its leading blanks. -/
def trimLeft (s : List Char) : List Char := s.dropWhile isBlank

/-- The text without its trailing blanks. -/
def trimRight (s : List Char) : List Char := (s.reverse.dropWhile isBlank).reverse

/-- The text without blanks at either end. -/
def trim (s : List Char) : List Char := trimRight (trimLeft s)

/-- `trim` for strings. -/
def trimmed (s : String) : String := String.ofList (trim s.toList)

/-- The maximal runs of characters other than blanks, with `run` the reverse of the run that is
being read. -/
def wordsFrom : List Char → List Char → List (List Char)
  | [], [] => []
  | [], run => [run.reverse]
  | c :: rest, run =>
    if isBlank c then
      match run with
      | [] => wordsFrom rest []
      | run => run.reverse :: wordsFrom rest []
    else wordsFrom rest (c :: run)

/-- The maximal runs of characters other than blanks. -/
def words (s : List Char) : List (List Char) := wordsFrom s []

/-- The words of the text with single spaces between them. -/
def squeezed (s : List Char) : String :=
  String.intercalate " " ((words s).map String.ofList)

/-- What stands before the first `c`, and what stands after it if there is one. -/
def cutAt (c : Char) (s : List Char) : List Char × Option (List Char) :=
  match s.dropWhile (· != c) with
  | [] => (s, none)
  | _ :: rest => (s.takeWhile (· != c), some rest)

/-- The text after `lead`, if it begins with it. -/
def after? (lead : String) (s : List Char) : Option (List Char) :=
  (chars lead).isPrefixOf? s

/-- The text begins with `lead`. -/
def startsWith (lead : String) (s : String) : Bool :=
  (chars lead).isPrefixOf (chars s)

/-- The beginning of a text by its characters. -/
theorem startsWith_eq (lead s : String) :
    startsWith lead s = lead.toList.isPrefixOf s.toList := by
  rw [startsWith, chars_eq_toList, chars_eq_toList]

/-- The text begins with one of the `leads`. -/
def startsWithAny (leads : List String) (s : String) : Bool :=
  leads.any (startsWith · s)

/-- The text ends with `tail`. -/
def endsWith (tail : String) (s : String) : Bool :=
  tail.toList.isSuffixOf s.toList

/-- Some tail of the text begins with `part`. -/
def holds (part : List Char) : List Char → Bool
  | [] => part.isEmpty
  | c :: rest => part.isPrefixOf (c :: rest) || holds part rest

/-- The text contains `part`. -/
def contains (part : String) (s : String) : Bool := holds part.toList s.toList

/-- The string without its first `n` characters. -/
def dropChars (n : Nat) (s : String) : String := String.ofList (s.toList.drop n)

/-- The list is not empty and all its members satisfy `p`. -/
def someAll (p : Char → Bool) (s : List Char) : Bool := !s.isEmpty && s.all p

/-- The members joined by a comma and a space. -/
def commaList (parts : List String) : String := String.intercalate ", " parts

@[simp] theorem trimLeft_nil : trimLeft [] = [] := rfl

@[simp] theorem trim_nil : trim [] = [] := rfl

/-- A word is never empty, whatever run was being read. -/
theorem wordsFrom_ne_nil (s run : List Char) : ∀ w ∈ wordsFrom s run, w ≠ [] := by
  induction s generalizing run with
  | nil => cases run <;> simp [wordsFrom]
  | cons c rest ih =>
    intro w hw
    unfold wordsFrom at hw
    split at hw
    · cases run with
      | nil => exact ih [] w hw
      | cons a run =>
        rcases List.mem_cons.1 hw with rfl | hw
        · simp
        · exact ih [] w hw
    · exact ih (c :: run) w hw

end AsmBridge.Text
