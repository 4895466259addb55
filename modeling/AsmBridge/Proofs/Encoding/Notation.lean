import AsmBridge.Proofs.Encoding.Rows
import AsmBridge.Proofs.Text.Cut
import AsmBridge.Proofs.Text.Digits

/-!
# The notation of operand types

The manual writes the type of an operand as a literal operand or as letters with a number behind
them, such as `r32` and `imm8`, or as two of these with a slash between them. Every type of the
table is written so that it can be read back (`OperandType.read?_text`).
-/

namespace AsmBridge

namespace OperandType

/-- The type of one operand that a text stands for. -/
def literal? (s : List Char) : Option OperandType := literals.find? fun t => t.text.toList == s

/-- The letters of the notation, among them the slash in front of a datum that may take the place of
a register. -/
def isLetter (c : Char) : Bool := "irmx/y".toList.contains c

/-- The type that letters and the number behind them stand for. -/
def ofLetters? (letters : List Char) (number : Option ℕ) : Option OperandType :=
  match String.ofList letters, number with
  | "r", some n => (Width.ofBits? n).map .gp
  | "r/m", some n => (Width.ofBits? n).map .gpOrMem
  | "imm", some n => (Width.ofBits? n).map .imm
  | "xmm", some n => some (.vector .xmm n)
  | "ymm", some n => some (.vector .ymm n)
  | "m", n => some (.mem n)
  | _, _ => none

/-- The type of letters and a number. -/
def readPlain? (s : List Char) : Option OperandType :=
  ofLetters? (s.takeWhile isLetter) (Text.digits? 10 (s.dropWhile isLetter))

/-- A register or a datum of another width. -/
def join? : OperandType → OperandType → Option OperandType
  | .gp w, .mem (some n) => some (.gpOrNarrow w n)
  | .vector k i, .mem (some n) => some (.vectorOrMem k i n)
  | _, _ => none

/-- The type that a text stands for. -/
def read? (s : List Char) : Option OperandType :=
  match literal? s, Text.cutAt '/' s with
  | some t, _ => some t
  | none, (_, none) => readPlain? s
  | none, (left, some right) =>
    if left = ['r'] then readPlain? s else do join? (← readPlain? left) (← readPlain? right)

/-- A number in decimal has no letters. -/
lemma isLetter_of_mem_toDigits {n : ℕ} {c : Char} (h : c ∈ Nat.toDigits 10 n) :
    isLetter c = false := by
  obtain ⟨d, hd, rfl⟩ := mem_toDigits (by decide) h
  interval_cases d <;> decide

/-- Letters are told from the number behind them. -/
lemma readPlain?_append {letters : List Char} (h : ∀ c ∈ letters, isLetter c = true) (n : ℕ) :
    readPlain? (letters ++ Nat.toDigits 10 n) = ofLetters? letters (some n) := by
  have htake : (Nat.toDigits 10 n).takeWhile isLetter = [] := by
    rw [List.takeWhile_eq_nil_iff]
    intro hlt
    rw [Bool.not_eq_true]
    exact isLetter_of_mem_toDigits (List.getElem_mem hlt)
  have hdrop : (Nat.toDigits 10 n).dropWhile isLetter = Nat.toDigits 10 n := by
    rw [List.dropWhile_eq_self_iff]
    intro hlt
    rw [Bool.not_eq_true]
    exact isLetter_of_mem_toDigits (List.getElem_mem hlt)
  rw [readPlain?, List.takeWhile_append_of_pos h, List.dropWhile_append_of_pos h, htake, hdrop,
    List.append_nil, digits?_toDigits (by decide) (by decide)]

/-- A text without a slash is read as letters and a number. -/
lemma read?_of_notMem {s : List Char} (hliteral : literal? s = none) (h : '/' ∉ s) :
    read? s = readPlain? s := by
  rw [read?, hliteral, Text.cutAt_of_notMem h]

/-- A text with a slash behind a register is read on both sides of it. -/
lemma read?_of_slash {left right : List Char} {t u : OperandType}
    (hliteral : literal? (left ++ '/' :: right) = none) (hleft : '/' ∉ left) (hne : left ≠ ['r'])
    (ht : readPlain? left = some t) (hu : readPlain? right = some u) :
    read? (left ++ '/' :: right) = join? t u := by
  rw [read?, hliteral, Text.cutAt_append hleft]
  dsimp only
  rw [if_neg hne, ht, hu]
  rfl

/-- A type is read back from its notation, if it is a literal one or none of one register. -/
theorem read?_text {t : OperandType} (h : ∀ r, t = .fixed r → t ∈ literals) :
    read? t.text.toList = some t := by
  have hslash : ∀ n : ℕ, '/' ∉ Nat.toDigits 10 n := fun n hmem =>
    absurd (isAlphanum_of_mem_toDigits (by decide) (by decide) hmem) (by decide)
  have hvector : ∀ (k : VectorKind) (n : ℕ),
      readPlain? (k.text.toList ++ Nat.toDigits 10 n) = some (.vector k n) := by
    intro k n
    cases k <;> rw [readPlain?_append (by decide)] <;> rfl
  have hmem : ∀ n : ℕ, readPlain? ('m' :: Nat.toDigits 10 n) = some (.mem (some n)) := by
    have hletter : ∀ c ∈ ['m'], isLetter c = true := by decide
    exact readPlain?_append hletter
  cases t with
  | one => rfl
  | fixed r =>
    have hread : ∀ t ∈ literals, read? t.text.toList = some t := by decide +kernel
    exact hread _ (h r rfl)
  | gp w => cases w <;> rfl
  | gpOrMem w => cases w <;> rfl
  | imm w => cases w <;> rfl
  | mem bits =>
    cases bits with
    | none => rfl
    | some n =>
      have htext : (text (.mem (some n))).toList = 'm' :: Nat.toDigits 10 n := by
        simp [text]
      have hnot : '/' ∉ 'm' :: Nat.toDigits 10 n := by simp [hslash]
      rw [htext, read?_of_notMem rfl hnot, hmem]
  | vector k n =>
    have htext : (text (.vector k n)).toList = k.text.toList ++ Nat.toDigits 10 n := by
      simp [text]
    have hnot : '/' ∉ k.text.toList ++ Nat.toDigits 10 n := by
      cases k <;> simp [VectorKind.text, hslash]
    rw [htext, read?_of_notMem (by cases k <;> rfl) hnot, hvector]
  | gpOrNarrow w n =>
    have htext : (text (.gpOrNarrow w n)).toList =
        (text (.gp w)).toList ++ '/' :: 'm' :: Nat.toDigits 10 n := by
      cases w <;> simp [text]
    have hleft : '/' ∉ (text (.gp w)).toList ∧ (text (.gp w)).toList ≠ ['r'] ∧
        readPlain? (text (.gp w)).toList = some (.gp w) := by
      cases w <;> decide +kernel
    obtain ⟨hnot, hne, hread⟩ := hleft
    rw [htext, read?_of_slash (by cases w <;> rfl) hnot hne hread (hmem n)]
    rfl
  | vectorOrMem k i n =>
    have htext : (text (.vectorOrMem k i n)).toList =
        (k.text.toList ++ Nat.toDigits 10 i) ++ '/' :: 'm' :: Nat.toDigits 10 n := by
      simp [text]
    have hnot : '/' ∉ k.text.toList ++ Nat.toDigits 10 i := by
      cases k <;> simp [VectorKind.text, hslash]
    have hne : k.text.toList ++ Nat.toDigits 10 i ≠ ['r'] := by
      cases k <;> simp [VectorKind.text]
    rw [htext, read?_of_slash (by cases k <;> rfl) hnot hne (hvector k i) (hmem n)]
    rfl

end OperandType

end AsmBridge
