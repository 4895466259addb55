import AsmBridge.Proofs.Text.Class
import AsmBridge.Text.Scan
import Mathlib.Data.List.Basic
import Mathlib.Data.List.TakeWhile
import Mathlib.Tactic.Common

/-!
# Pieces of a text

Trimming a text and taking it apart into words leave characters out and add none, and blanks around
a text make no difference to either. What is left of a row of words with blanks between them are the
words (`words_append`).
-/

namespace AsmBridge.Text

variable {s t w front back : List Char} {c : Char}

/-- There is a character in the text, and each one passes the test. -/
lemma someAll_iff {p : Char → Bool} : someAll p s = true ↔ s ≠ [] ∧ ∀ c ∈ s, p c = true := by
  rw [someAll, Bool.and_eq_true, Bool.not_eq_true', List.isEmpty_eq_false_iff, List.all_eq_true]

/-! ## Beginnings -/

section Beginnings

variable {p : Char → Bool}

/-- A text whose characters pass the test ends where the next one does not. -/
lemma takeWhile_append_of_head (hs : ∀ c ∈ s, p c = true) (ht : ∀ c ∈ t.head?, p c = false) :
    (s ++ t).takeWhile p = s := by
  rw [List.takeWhile_append_of_pos hs]
  cases t with
  | nil => rw [List.takeWhile_nil, List.append_nil]
  | cons c t => rw [List.takeWhile_cons_of_neg (by simp [ht c rfl]), List.append_nil]

lemma dropWhile_append_of_head (hs : ∀ c ∈ s, p c = true) (ht : ∀ c ∈ t.head?, p c = false) :
    (s ++ t).dropWhile p = t := by
  rw [List.dropWhile_append_of_pos hs]
  cases t with
  | nil => rfl
  | cons c t => rw [List.dropWhile_cons_of_neg (by simp [ht c rfl])]

end Beginnings

/-! ## Trimming -/

lemma trimLeft_append (h : ∀ c ∈ front, isBlank c = true) : trimLeft (front ++ s) = trimLeft s :=
  List.dropWhile_append_of_pos h

lemma trimRight_append (h : ∀ c ∈ back, isBlank c = true) : trimRight (s ++ back) = trimRight s := by
  rw [trimRight, List.reverse_append, List.dropWhile_append_of_pos (by simpa using h), trimRight]

lemma trimLeft_eq_self (h : ∀ c ∈ s.head?, isBlank c = false) : trimLeft s = s := by
  cases s with
  | nil => rfl
  | cons c s => rw [trimLeft, List.dropWhile_cons_of_neg (by simp [h c rfl])]

lemma trimRight_eq_self (h : ∀ c ∈ s.getLast?, isBlank c = false) : trimRight s = s := by
  have hreverse : trimLeft s.reverse = s.reverse :=
    trimLeft_eq_self (by rwa [List.head?_reverse])
  rw [trimRight, ← trimLeft, hreverse, List.reverse_reverse]

/-- A text without blanks at its ends is trimmed already. -/
lemma trim_eq_self (hhead : ∀ c ∈ s.head?, isBlank c = false)
    (hlast : ∀ c ∈ s.getLast?, isBlank c = false) : trim s = s := by
  rw [trim, trimLeft_eq_self hhead, trimRight_eq_self hlast]

/-- Blanks before a text are trimmed. -/
lemma trim_append_left (hfront : ∀ c ∈ front, isBlank c = true) : trim (front ++ s) = trim s := by
  rw [trim, trimLeft_append hfront, trim]

/-- Blanks behind a text are trimmed. -/
lemma trim_append_right (hback : ∀ c ∈ back, isBlank c = true) : trim (s ++ back) = trim s := by
  have hleft : trimLeft (s ++ back) =
      if (trimLeft s).isEmpty then trimLeft back else trimLeft s ++ back := List.dropWhile_append
  rw [trim, hleft, trim]
  split
  · rename_i hnil
    rw [List.isEmpty_iff.mp hnil, trimLeft, List.dropWhile_eq_nil_iff.mpr hback]
  · exact trimRight_append hback

lemma mem_of_mem_trimLeft (h : c ∈ trimLeft s) : c ∈ s := (List.dropWhile_sublist _).subset h

/-- Trimming adds no character. -/
lemma mem_of_mem_trim (h : c ∈ trim s) : c ∈ s := by
  rw [trim, trimRight, List.mem_reverse] at h
  exact mem_of_mem_trimLeft (List.mem_reverse.mp ((List.dropWhile_sublist _).subset h))

/-- What is trimmed is a piece of the text. -/
lemma trim_infix (s : List Char) : trim s <:+: s := by
  have hright : trimRight (trimLeft s) <+: trimLeft s := by
    rw [trimRight, ← List.reverse_suffix, List.reverse_reverse]
    exact List.dropWhile_suffix _
  exact hright.isInfix.trans (List.dropWhile_suffix _).isInfix

/-- Nothing is left of a text exactly if it is all blanks. -/
lemma trim_eq_nil_iff : trim s = [] ↔ ∀ c ∈ s, isBlank c = true := by
  constructor
  · intro h
    have hleft : trimLeft s = [] := by
      rw [trim, trimRight, List.reverse_eq_nil_iff, List.dropWhile_eq_nil_iff] at h
      have hhead := List.head?_dropWhile_not isBlank s
      cases hs : trimLeft s with
      | nil => rfl
      | cons c t =>
        rw [← trimLeft, hs] at hhead
        rw [hs] at h
        exact absurd (h c (by simp)) (by simpa using hhead)
    exact List.dropWhile_eq_nil_iff.mp hleft
  · intro h
    rw [trim, trimLeft, List.dropWhile_eq_nil_iff.mpr h]
    rfl

/-! ## Words -/

/-- What holds of the characters of a text that are no blanks, and of those of the run in front of
it, holds of the characters of its words. -/
lemma forall_mem_wordsFrom {P : Char → Prop} {run : List Char}
    (hs : ∀ c ∈ s, isBlank c = false → P c) (hrun : ∀ c ∈ run, P c) (hw : w ∈ wordsFrom s run) :
    ∀ c ∈ w, P c := by
  induction s generalizing run with
  | nil =>
    cases run with
    | nil => cases hw
    | cons d run =>
      obtain rfl := List.mem_singleton.mp hw
      exact fun c hc => hrun c (List.mem_reverse.mp hc)
  | cons d s ih =>
    obtain ⟨hd, hs⟩ := List.forall_mem_cons.mp hs
    rw [wordsFrom.eq_def] at hw
    dsimp only at hw
    split at hw
    · split at hw
      · exact ih hs hrun hw
      · rcases List.mem_cons.mp hw with rfl | hw
        · exact fun c hc => hrun c (List.mem_reverse.mp hc)
        · exact ih hs (List.forall_mem_nil _) hw
    · rename_i hblank
      exact ih hs (List.forall_mem_cons.mpr ⟨hd (Bool.eq_false_iff.mpr hblank), hrun⟩) hw

/-- No word has a blank in it. -/
lemma isBlank_of_mem_wordsFrom {run : List Char} (hrun : ∀ c ∈ run, isBlank c = false)
    (hw : w ∈ wordsFrom s run) (hc : c ∈ w) : isBlank c = false :=
  forall_mem_wordsFrom (P := fun c => isBlank c = false) (fun _ _ hblank => hblank) hrun hw c hc

/-- A character of a word is one of the text. -/
lemma mem_of_mem_wordsFrom {run : List Char} (hw : w ∈ wordsFrom s run) (hc : c ∈ w) :
    c ∈ s ∨ c ∈ run :=
  forall_mem_wordsFrom (P := fun c => c ∈ s ∨ c ∈ run) (fun _ hmem _ => .inl hmem)
    (fun _ hmem => .inr hmem) hw c hc

lemma mem_of_mem_intercalate {sep : List Char} {parts : List (List Char)}
    (h : c ∈ sep.intercalate parts) : c ∈ sep ∨ ∃ part ∈ parts, c ∈ part := by
  induction parts with
  | nil => cases h
  | cons part parts ih =>
    cases parts with
    | nil =>
      rw [List.intercalate_singleton] at h
      exact .inr ⟨part, List.mem_cons_self, h⟩
    | cons next parts =>
      rw [List.intercalate_cons_cons, List.mem_append, List.mem_append] at h
      rcases h with (h | h) | h
      · exact .inr ⟨part, List.mem_cons_self, h⟩
      · exact .inl h
      · exact (ih h).imp_right fun ⟨p, hp, hc⟩ => ⟨p, List.mem_cons_of_mem _ hp, hc⟩

/-- A character of the words of a text with single spaces between them is one of the text, or such
a space. -/
lemma mem_of_mem_squeezed (h : c ∈ (squeezed s).toList) : c ∈ s ∨ c = ' ' := by
  rw [squeezed, String.toList_intercalate] at h
  rcases mem_of_mem_intercalate h with h | ⟨part, hpart, hc⟩
  · exact .inr (List.mem_singleton.mp h)
  · obtain ⟨text, htext, rfl⟩ := List.mem_map.mp hpart
    obtain ⟨w, hw, rfl⟩ := List.mem_map.mp htext
    rw [String.toList_ofList] at hc
    exact .inl ((mem_of_mem_wordsFrom hw hc).resolve_right List.not_mem_nil)

/-- The word that is being read goes on as long as no blank comes. -/
lemma wordsFrom_append {run : List Char} (hw : ∀ c ∈ w, isBlank c = false) :
    wordsFrom (w ++ s) run = wordsFrom s (w.reverse ++ run) := by
  induction w generalizing run with
  | nil => rfl
  | cons c w ih =>
    obtain ⟨hc, hw⟩ := List.forall_mem_cons.mp hw
    rw [List.cons_append, wordsFrom.eq_def]
    simp only [hc, Bool.false_eq_true, if_false]
    rw [ih hw, List.reverse_cons, List.append_assoc, List.singleton_append]

/-- A row of characters without blanks is one word. -/
lemma words_eq_singleton (hne : w ≠ []) (hw : ∀ c ∈ w, isBlank c = false) : words w = [w] := by
  have h : wordsFrom (w ++ []) [] = wordsFrom [] (w.reverse ++ []) := wordsFrom_append hw
  rw [List.append_nil, List.append_nil] at h
  rw [words, h, wordsFrom.eq_def]
  obtain ⟨c, rest, heq⟩ := List.exists_cons_of_ne_nil (List.reverse_ne_nil_iff.mpr hne)
  simp only [heq]
  rw [← heq, List.reverse_reverse]

/-- A word in front of a blank is the first one. -/
lemma words_append (hne : w ≠ []) (hw : ∀ c ∈ w, isBlank c = false) (hc : isBlank c = true) :
    words (w ++ c :: s) = w :: words s := by
  rw [words, wordsFrom_append hw, List.append_nil, wordsFrom.eq_def]
  obtain ⟨d, rest, heq⟩ := List.exists_cons_of_ne_nil (List.reverse_ne_nil_iff.mpr hne)
  simp only [hc, if_true, heq]
  rw [← heq, List.reverse_reverse, words]

/-! ## Rows -/

/-- A part between separators has none of them in it and is a part of the text. -/
lemma mem_splitOn (h : t ∈ s.splitOn c) : c ∉ t ∧ ∀ d ∈ t, d ∈ s := by
  induction s generalizing t with
  | nil =>
    rw [List.splitOn_nil, List.mem_singleton] at h
    rw [h]
    exact ⟨List.not_mem_nil, fun d hd => hd⟩
  | cons e s ih =>
    have hrest : ∀ p ∈ s.splitOn c, c ∉ p ∧ ∀ d ∈ p, d ∈ e :: s := by
      intro p hp
      obtain ⟨hsep, hmem⟩ := ih hp
      exact ⟨hsep, fun d hd => List.mem_cons_of_mem _ (hmem d hd)⟩
    rw [List.splitOn_cons_eq_if_modifyHead] at h
    split at h
    · rcases List.mem_cons.mp h with rfl | h
      · exact ⟨List.not_mem_nil, fun d hd => nomatch hd⟩
      · exact hrest t h
    · rename_i he
      obtain ⟨first, parts, hs⟩ := List.exists_cons_of_ne_nil (List.splitOn_ne_nil c s)
      rw [hs] at h hrest
      rw [List.modifyHead_cons] at h
      rcases List.mem_cons.mp h with rfl | h
      · obtain ⟨hsep, hmem⟩ := hrest first List.mem_cons_self
        refine ⟨?_, List.forall_mem_cons.mpr ⟨List.mem_cons_self, hmem⟩⟩
        rw [List.mem_cons, not_or]
        exact ⟨fun heq => he (by simp [heq]), hsep⟩
      · exact hrest t (List.mem_cons_of_mem _ h)

/-- The parts of a row between which the separator stands with a space behind it. -/
lemma splitOn_row {sep : Char} (front : List Char) {part : List Char} {parts : List (List Char)}
    (hfront : sep ∉ front) (hsep : sep ≠ ' ') (h : ∀ p ∈ part :: parts, sep ∉ p) :
    (front ++ [sep, ' '].intercalate (part :: parts)).splitOn sep =
      (front ++ part) :: parts.map (' ' :: ·) := by
  induction parts generalizing front part with
  | nil =>
    rw [List.intercalate_singleton]
    refine List.splitOn_eq_singleton ?_
    rw [List.mem_append, not_or]
    exact ⟨hfront, h part List.mem_cons_self⟩
  | cons next parts ih =>
    obtain ⟨hpart, hparts⟩ := List.forall_mem_cons.mp h
    have hrest := ih [' '] (by simpa using hsep) hparts
    have hrow : front ++ [sep, ' '].intercalate (part :: next :: parts) =
        (front ++ part) ++ sep :: ([' '] ++ [sep, ' '].intercalate (next :: parts)) := by
      simp [List.intercalate_cons_cons]
    rw [hrow, List.splitOn_append_cons_self_of_not_mem, hrest]
    · rfl
    · rw [List.mem_append, not_or]
      exact ⟨hfront, hpart⟩

/-- What stands before and behind the first occurrence of a character. -/
lemma cutAt_append (h : c ∉ s) : cutAt c (s ++ c :: t) = (s, some t) := by
  have hs : ∀ d ∈ s, (d != c) = true := by
    intro d hd
    rw [bne_iff_ne]
    rintro rfl
    exact h hd
  rw [cutAt, List.dropWhile_append_of_pos hs, List.takeWhile_append_of_pos hs,
    List.dropWhile_cons_of_neg (by simp), List.takeWhile_cons_of_neg (by simp), List.append_nil]

/-- What stands behind a beginning. -/
lemma after?_append (lead : String) (s : List Char) : after? lead (lead.toList ++ s) = some s := by
  rw [after?, chars_eq_toList]
  induction lead.toList with
  | nil => rfl
  | cons c rest ih => rw [List.cons_append, List.isPrefixOf?, if_pos BEq.rfl, ih]

/-- A text without the character is not cut. -/
lemma cutAt_of_notMem (h : c ∉ s) : cutAt c s = (s, none) := by
  have hs : s.dropWhile (· != c) = [] := by
    rw [List.dropWhile_eq_nil_iff]
    intro d hd
    rw [bne_iff_ne]
    rintro rfl
    exact h hd
  rw [cutAt, hs]

lemma eq_of_cutAt_none (h : cutAt c s = (t, none)) : s = t := by
  rw [cutAt] at h
  split at h
  · exact (Prod.mk.inj h).1
  · cases h

/-- What stands before the first occurrence of a character is without it. -/
lemma notMem_cutAt (c : Char) (s : List Char) : c ∉ (cutAt c s).1 := by
  rw [cutAt]
  split
  · rename_i hdrop
    rw [List.dropWhile_eq_nil_iff] at hdrop
    exact fun hc => absurd (hdrop c hc) (by simp)
  · exact fun hc => absurd (List.mem_takeWhile_imp hc) (by simp)

/-- A text that is cut consists of its parts and the character between them. -/
lemma eq_append_of_cutAt (h : cutAt c s = (t, some w)) : s = t ++ c :: w := by
  rw [cutAt] at h
  split at h
  · cases h
  · rename_i d rest hdrop
    obtain ⟨rfl, hrest⟩ := Prod.mk.inj h
    obtain rfl := Option.some.inj hrest
    have hd : d = c := by
      have hhead := List.head?_dropWhile_not (· != c) s
      rw [hdrop] at hhead
      simpa using hhead
    rw [← hd, ← hdrop, hd, List.takeWhile_append_dropWhile]

/-- A piece of two texts with a character between them that is not in it is a piece of one. -/
lemma infix_or_infix (h : w <:+: s ++ c :: t) (hc : c ∉ w) : w <:+: s ∨ w <:+: t := by
  rcases List.infix_append_iff.mp h with h | h | ⟨front, back, rfl, hfront, hback⟩
  · exact .inl h
  · rcases List.infix_cons_iff.mp h with h | h
    · rcases List.prefix_cons_iff.mp h with rfl | ⟨rest, rfl, -⟩
      · exact .inl List.nil_infix
      · exact absurd List.mem_cons_self hc
    · exact .inr h
  · rcases List.prefix_cons_iff.mp hback with rfl | ⟨rest, rfl, -⟩
    · rw [List.append_nil]
      exact .inl hfront.isInfix
    · exact absurd (List.mem_append_right _ List.mem_cons_self) hc

end AsmBridge.Text
