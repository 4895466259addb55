import AsmBridge.Proofs.Text.Cut

/-!
# Rows of words

A text is a row of words if it consists of them, with blanks between them and perhaps blanks around
them. The words of a text are the one list of words of which it is a row (`words_eq_iff`), so that
blanks around it make no difference to them (`words_trim`).
-/

namespace AsmBridge.Text

variable {s front back run : List Char} {ws : List (List Char)} {c : Char}

/-- The text consists of the words, with blanks between them and perhaps blanks around them. -/
inductive IsWordRow : List (List Char) → List Char → Prop
  | nil : IsWordRow [] []
  | blank {c : Char} {s : List Char} {ws : List (List Char)} (hc : isBlank c = true)
      (hs : IsWordRow ws s) : IsWordRow ws (c :: s)
  | word {w s : List Char} {ws : List (List Char)} (hne : w ≠ []) (hw : ∀ c ∈ w, isBlank c = false)
      (hs : IsWordRow ws s) (hhead : ∀ c ∈ s.head?, isBlank c = true) : IsWordRow (w :: ws) (w ++ s)

/-! ## The words that are read -/

/-- A blank in front of a text makes no difference to its words. -/
lemma words_cons_of_isBlank (hc : isBlank c = true) : words (c :: s) = words s := by
  rw [words, wordsFrom.eq_def]
  simp only [hc, if_true]
  rfl

/-- The words of a row are read. -/
lemma IsWordRow.words_eq (h : IsWordRow ws s) : words s = ws := by
  induction h with
  | nil => rfl
  | blank hc _ ih => rw [words_cons_of_isBlank hc, ih]
  | @word w s ws hne hw _ hhead ih =>
    cases s with
    | nil => rw [List.append_nil, words_eq_singleton hne hw, ← ih, words, wordsFrom]
    | cons c s =>
      have hc : isBlank c = true := hhead c rfl
      rw [words_append hne hw hc, ← words_cons_of_isBlank hc, ih]

/-! ## The row that is a text -/

/-- Blanks in front of a row. -/
lemma IsWordRow.append_left (hfront : ∀ c ∈ front, isBlank c = true) (h : IsWordRow ws s) :
    IsWordRow ws (front ++ s) := by
  induction front with
  | nil => exact h
  | cons c front ih =>
    obtain ⟨hc, hfront⟩ := List.forall_mem_cons.mp hfront
    exact .blank hc (ih hfront)

/-- A row of no words is blank. -/
lemma isWordRow_nil_iff : IsWordRow [] s ↔ ∀ c ∈ s, isBlank c = true := by
  constructor
  · intro h
    induction s with
    | nil => exact List.forall_mem_nil _
    | cons c s ih =>
      cases h with
      | blank hc hs => exact List.forall_mem_cons.mpr ⟨hc, ih hs⟩
  · intro h
    rw [← List.append_nil s]
    exact IsWordRow.nil.append_left h

/-- Blanks behind a row. -/
lemma IsWordRow.append_right (hback : ∀ c ∈ back, isBlank c = true) (h : IsWordRow ws s) :
    IsWordRow ws (s ++ back) := by
  induction h with
  | nil => exact isWordRow_nil_iff.mpr hback
  | blank hc _ ih => exact .blank hc ih
  | @word w s ws hne hw _ hhead ih =>
    rw [List.append_assoc]
    refine .word hne hw ih ?_
    cases s with
    | nil => exact fun c hc => hback c (List.mem_of_head? hc)
    | cons d s => exact hhead

/-- The run that is being read and the text behind it are a row of the words that are read. -/
lemma isWordRow_wordsFrom (hrun : ∀ c ∈ run, isBlank c = false) :
    IsWordRow (wordsFrom s run) (run.reverse ++ s) := by
  have hword : ∀ {run : List Char}, (∀ c ∈ run, isBlank c = false) →
      ∀ c ∈ run.reverse, isBlank c = false := fun hrun c hc => hrun c (List.mem_reverse.mp hc)
  induction s generalizing run with
  | nil =>
    cases run with
    | nil => exact .nil
    | cons d run => exact .word (by simp) (hword hrun) .nil fun c hc => nomatch hc
  | cons d s ih =>
    rw [wordsFrom.eq_def]
    dsimp only
    split
    · rename_i hd
      have hrest : IsWordRow (wordsFrom s []) (d :: s) := .blank hd (ih (List.forall_mem_nil _))
      -- a blank ends the run, if there is one
      cases run with
      | nil => exact hrest
      | cons e run => exact .word (by simp) (hword hrun) hrest (by rintro c ⟨⟩; exact hd)
    · rename_i hd
      have hrest := ih (List.forall_mem_cons.mpr ⟨by simpa using hd, hrun⟩)
      rwa [List.reverse_cons, List.append_assoc, List.singleton_append] at hrest

/-- The words of a text are the one list of words of which it is a row. -/
theorem words_eq_iff : words s = ws ↔ IsWordRow ws s := by
  constructor
  · rintro rfl
    exact isWordRow_wordsFrom (List.forall_mem_nil _)
  · exact IsWordRow.words_eq

instance : Decidable (IsWordRow ws s) := decidable_of_iff _ words_eq_iff

/-- A text without words is blank. -/
lemma words_eq_nil_iff : words s = [] ↔ ∀ c ∈ s, isBlank c = true :=
  words_eq_iff.trans isWordRow_nil_iff

/-! ## Blanks around a text -/

/-- What is trimmed from a text is blank. -/
lemma exists_eq_trim (s : List Char) : ∃ front back, (∀ c ∈ front, isBlank c = true) ∧
    (∀ c ∈ back, isBlank c = true) ∧ front ++ (trim s ++ back) = s := by
  refine ⟨s.takeWhile isBlank, ((trimLeft s).reverse.takeWhile isBlank).reverse,
    fun c hc => List.mem_takeWhile_imp hc,
    fun c hc => List.mem_takeWhile_imp (List.mem_reverse.mp hc), ?_⟩
  rw [trim, trimRight, ← List.reverse_append, List.takeWhile_append_dropWhile, List.reverse_reverse,
    trimLeft, List.takeWhile_append_dropWhile]

/-- Trimming a text makes no difference to its words. -/
lemma words_trim (s : List Char) : words (trim s) = words s := by
  obtain ⟨front, back, hfront, hback, heq⟩ := exists_eq_trim s
  have hrow : IsWordRow (words (trim s)) (front ++ (trim s ++ back)) :=
    ((words_eq_iff.mp rfl).append_right hback).append_left hfront
  rw [heq] at hrow
  exact hrow.words_eq.symm

end AsmBridge.Text
