import AsmBridge.Proofs.Source.Numerals

/-!
# Size hints

A memory operand may begin with the word for a width in letters of either case, which blanks follow
and perhaps `ptr` with blanks behind it. The hint that is taken off an operand is of this form
(`exists_hint_of_width?`), and a hint of this form is taken off (`width?_hint`).
-/

namespace AsmBridge.Source

/-- The text is the word in letters of either case with blanks behind it. -/
def IsWordGap (word : String) (s : List Char) : Prop :=
  ∃ w gap, s = w ++ gap ∧ w.map Char.toLower = word.toList ∧ gap ≠ [] ∧
    ∀ c ∈ gap, Text.isBlank c = true

/-- The text is a hint for a width in bits. -/
inductive IsHint : ℕ → List Char → Prop
  | word {bits : ℕ} {word : String} {s : List Char} (hword : (word, bits) ∈ widthWords)
    (hs : IsWordGap word s) : IsHint bits s
  | ptr {bits : ℕ} {word : String} {s t : List Char} (hword : (word, bits) ∈ widthWords)
    (hs : IsWordGap word s) (ht : IsWordGap "ptr" t) : IsHint bits (s ++ t)

variable {word : String} {s t : List Char}

/-! ## Words -/

lemma afterWord?_of_isWordGap (hs : IsWordGap word s) (ht : ∀ c ∈ t.head?, Text.isBlank c = false) :
    afterWord? word (s ++ t) = some t := by
  obtain ⟨w, gap, rfl, hw, hgap, hblank⟩ := hs
  obtain ⟨c, gap, rfl⟩ := List.exists_cons_of_ne_nil hgap
  obtain ⟨hc, hblank⟩ := List.forall_mem_cons.mp hblank
  have hlength : word.toList.length = w.length := by rw [← hw, List.length_map]
  have htake : (w ++ c :: (gap ++ t)).take w.length = w := List.take_left' rfl
  have hdrop : (w ++ c :: (gap ++ t)).drop w.length = c :: (gap ++ t) := List.drop_left' rfl
  rw [List.append_assoc, List.cons_append]
  simp only [afterWord?, Text.chars_eq_toList, hlength, htake, hdrop, hw, BEq.rfl, if_true, hc,
    Text.trimLeft_append hblank, Text.trimLeft_eq_self ht]

lemma isWordGap_of_afterWord? (h : afterWord? word s = some t) :
    (∃ front, IsWordGap word front ∧ s = front ++ t) ∧ ∀ c ∈ t.head?, Text.isBlank c = false := by
  simp only [afterWord?, Text.chars_eq_toList] at h
  split_ifs at h with hw
  split at h
  · rename_i c rest hdrop
    split_ifs at h with hc
    obtain rfl := Option.some.inj h
    have htrim : rest.takeWhile Text.isBlank ++ Text.trimLeft rest = rest :=
      List.takeWhile_append_dropWhile
    have hblank : ∀ d ∈ c :: rest.takeWhile Text.isBlank, Text.isBlank d = true :=
      List.forall_mem_cons.mpr ⟨hc, fun d hd => List.mem_takeWhile_imp hd⟩
    refine ⟨⟨s.take word.toList.length ++ c :: rest.takeWhile Text.isBlank, ?_, ?_⟩, ?_⟩
    · exact ⟨_, _, rfl, beq_iff_eq.mp hw, List.cons_ne_nil _ _, hblank⟩
    · rw [List.append_assoc, List.cons_append, htrim, ← hdrop, List.take_append_drop]
    · intro d hd
      have hhead := List.head?_dropWhile_not Text.isBlank rest
      rw [Text.trimLeft] at hd
      rw [Option.mem_def.mp hd] at hhead
      simpa using hhead
  · cases h

/-! ## Hints -/

lemma isAlphanum_of_mem_widthWords {bits : ℕ} (h : (word, bits) ∈ widthWords) :
    ∀ c ∈ word.toList, c.isAlphanum = true := by
  have hall : ∀ p ∈ widthWords, ∀ c ∈ p.1.toList, c.isAlphanum = true := by decide
  exact hall (word, bits) h

/-- The word in front of a text is what stands in front of its first blank. -/
lemma eq_of_isWordGap {word' : String} {s' t' : List Char} (hs : IsWordGap word s)
    (hs' : IsWordGap word' s') (hword : ∀ c ∈ word.toList, c.isAlphanum = true)
    (hword' : ∀ c ∈ word'.toList, c.isAlphanum = true) (h : s ++ t = s' ++ t') : word = word' := by
  have hfirst : ∀ {word s t}, IsWordGap word s → (∀ c ∈ word.toList, c.isAlphanum = true) →
      ((s ++ t).takeWhile fun c => !Text.isBlank c).map Char.toLower = word.toList := by
    rintro word s t ⟨w, gap, rfl, hw, hgap, hblank⟩ hword
    obtain ⟨c, gap, rfl⟩ := List.exists_cons_of_ne_nil hgap
    have hplain : ∀ d ∈ w, (!Text.isBlank d) = true := by
      intro d hd
      have hlower : d.toLower ∈ word.toList := hw ▸ List.mem_map_of_mem hd
      rw [isBlank_of_isAlphanum (isAlphanum_of_toLower (hword _ hlower))]
      rfl
    rw [List.append_assoc, List.takeWhile_append_of_pos hplain, List.cons_append,
      List.takeWhile_cons_of_neg (by simp [hblank c List.mem_cons_self]), List.append_nil, hw]
  refine String.toList_inj.mp ?_
  rw [← hfirst (t := t) hs hword, h, hfirst hs' hword']

lemma isBlank_of_head (hs : IsWordGap word s) (t : List Char) (hne : word.toList ≠ [])
    (hword : ∀ c ∈ word.toList, c.isAlphanum = true) :
    ∀ c ∈ (s ++ t).head?, Text.isBlank c = false := by
  obtain ⟨w, gap, rfl, hw, -⟩ := hs
  cases w with
  | nil => exact absurd hw.symm hne
  | cons c w =>
    rintro d ⟨⟩
    exact isBlank_of_isAlphanum (isAlphanum_of_toLower (hword _ (hw ▸ List.mem_cons_self)))

/-- A search finds what it finds at the one member at which it may find something. -/
lemma findSome?_of_forall_ne {α β : Type} {f : α → Option β} {a : α} {l : List α} (ha : a ∈ l)
    (h : ∀ b ∈ l, b ≠ a → f b = none) : l.findSome? f = f a := by
  cases hf : f a with
  | none =>
    rw [List.findSome?_eq_none_iff]
    intro b hb
    by_cases hba : b = a
    · rw [hba, hf]
    · exact h b hb hba
  | some v =>
    have hsome : (l.findSome? f).isSome = true :=
      List.findSome?_isSome_iff.mpr ⟨a, ha, by rw [hf]; rfl⟩
    obtain ⟨u, hu⟩ := Option.isSome_iff_exists.mp hsome
    obtain ⟨b, hb, hbu⟩ := List.exists_of_findSome?_eq_some hu
    have hba : b = a := by
      by_contra hba
      exact nomatch (h b hb hba).symm.trans hbu
    rw [hu, ← hbu, hba, hf]

/-- The hint that is taken off depends on the one word that the operand begins with. -/
lemma width?_of_isWordGap {bits : ℕ} (hword : (word, bits) ∈ widthWords) (hs : IsWordGap word s)
    (ht : ∀ c ∈ t.head?, Text.isBlank c = false) :
    width? (s ++ t) =
      (restOfLine? ((afterWord? "ptr" t).getD t)).map fun rest => (bits, Text.trim rest) := by
  have hkeys : ∀ p ∈ widthWords, ∀ q ∈ widthWords, p.1 = q.1 → p = q := by decide
  have hother : ∀ p ∈ widthWords, p ≠ (word, bits) → afterWord? p.1 (s ++ t) = none := by
    intro p hp hne
    by_contra hsome
    obtain ⟨u, hu⟩ := Option.ne_none_iff_exists'.mp hsome
    obtain ⟨⟨front, hfront, heq⟩, -⟩ := isWordGap_of_afterWord? hu
    have hsame := eq_of_isWordGap hs hfront (isAlphanum_of_mem_widthWords hword)
      (isAlphanum_of_mem_widthWords hp) heq
    exact hne (hkeys p hp (word, bits) hword hsame.symm)
  rw [width?, findSome?_of_forall_ne hword fun p hp hne => by rw [hother p hp hne]; rfl,
    afterWord?_of_isWordGap hs ht]
  simp only [Option.bind_eq_bind, Option.bind_some]
  cases restOfLine? ((afterWord? "ptr" t).getD t) <;> rfl

/-- An operand on one line, trimmed and without a `ptr` of its own in front, is what remains of it
behind a hint. -/
lemma width?_hint {bits : ℕ} (hs : IsHint bits s) (hptr : afterWord? "ptr" t = none)
    (hline : '\n' ∉ t) (hhead : ∀ c ∈ t.head?, Text.isBlank c = false)
    (hlast : ∀ c ∈ t.getLast?, Text.isBlank c = false) : width? (s ++ t) = some (bits, t) := by
  have hrest : restOfLine? t = some t := by rw [restOfLine?, Text.cutAt_of_notMem hline]
  have htrim : Text.trim t = t := Text.trim_eq_self hhead hlast
  cases hs with
  | word hword hs =>
    rw [width?_of_isWordGap hword hs hhead, hptr, Option.getD_none, hrest, Option.map_some, htrim]
  | ptr hword hs hp =>
    have hfirst := isBlank_of_head hp t (by decide) (by decide)
    rw [List.append_assoc, width?_of_isWordGap hword hs hfirst, afterWord?_of_isWordGap hp hhead,
      Option.getD_some, hrest, Option.map_some, htrim]

lemma trim_of_restOfLine? (h : restOfLine? s = some t)
    (hhead : ∀ c ∈ s.head?, Text.isBlank c = false)
    (hlast : ∀ c ∈ s.getLast?, Text.isBlank c = false) : Text.trim t = s := by
  unfold restOfLine? at h
  split at h
  · rename_i hcut
    rw [← Option.some.inj h, ← Text.eq_of_cutAt_none hcut]
    exact Text.trim_eq_self hhead hlast
  · rename_i line hcut
    have hbreak : s.getLast? = some '\n' := by
      rw [Text.eq_append_of_cutAt hcut]
      exact List.getLast?_concat
    exact absurd (hlast _ hbreak) (by decide)
  · cases h

/-- What is taken off an operand that does not end in a blank is a hint. -/
lemma exists_hint_of_width? {bits : ℕ} (h : width? s = some (bits, t))
    (hlast : ∀ c ∈ s.getLast?, Text.isBlank c = false) :
    ∃ hint, IsHint bits hint ∧ s = hint ++ t := by
  obtain ⟨⟨word, n⟩, hword, h⟩ := List.exists_of_findSome?_eq_some h
  obtain ⟨after, hafter, h⟩ := Option.bind_eq_some_iff.mp h
  obtain ⟨rest, hrest, h⟩ := Option.bind_eq_some_iff.mp h
  obtain ⟨rfl, rfl⟩ := Prod.mk.inj (Option.some.inj h)
  obtain ⟨⟨front, hfront, rfl⟩, hhead⟩ := isWordGap_of_afterWord? hafter
  have hsuffix : ∀ {u v : List Char}, (∀ c ∈ (u ++ v).getLast?, Text.isBlank c = false) →
      ∀ c ∈ v.getLast?, Text.isBlank c = false := by
    intro u v h c hc
    have hne : v ≠ [] := List.ne_nil_of_mem (List.mem_of_getLast? hc)
    exact h c (by rwa [List.getLast?_append_of_ne_nil _ hne])
  cases hptr : afterWord? "ptr" after with
  | none =>
    rw [hptr, Option.getD_none] at hrest
    exact ⟨front, .word hword hfront, by rw [trim_of_restOfLine? hrest hhead (hsuffix hlast)]⟩
  | some more =>
    rw [hptr, Option.getD_some] at hrest
    obtain ⟨⟨ptr, hp, rfl⟩, hmore⟩ := isWordGap_of_afterWord? hptr
    refine ⟨front ++ ptr, .ptr hword hfront hp, ?_⟩
    rw [trim_of_restOfLine? hrest hmore (hsuffix (hsuffix hlast)), List.append_assoc]

/-! ## Operands behind a hint -/

/-- The text is a hint for the width, or nothing if there is none. -/
def IsFront : Option ℕ → List Char → Prop
  | none, s => s = []
  | some bits, s => IsHint bits s

/-- An operand that ends in a bracket is read as an address unless it begins with the word for an
absolute address or with a segment register. -/
def readBracketed (line : Option ℕ) (bits : Option ℕ) (op : List Char) : Except Fault Operand :=
  let text := String.ofList op
  if isOffset op then .error (defectAt line text (.absoluteAddress text))
  else if isSegmented op then .error (defectAt line text (.segmentOverride text))
  else (readAddress line bits op).map .mem

lemma readOperand_of_hinted {line : Option ℕ} {bits : ℕ} (hlast : t.getLast? = some ']')
    (h : width? s = some (bits, t)) : readOperand line s = readBracketed line (some bits) t := by
  simp only [readOperand, h, readBracketed, hlast, BEq.rfl, if_true]

lemma readOperand_of_plain {line : Option ℕ} (hlast : s.getLast? = some ']')
    (h : width? s = none) : readOperand line s = readBracketed line none s := by
  simp only [readOperand, h, readBracketed, hlast, BEq.rfl, if_true]

/-- A memory operand that stands on one line and does not begin with a word and blanks behind it. -/
structure IsPlainOperand (op : List Char) : Prop where
  width : width? op = none
  ptr : afterWord? "ptr" op = none
  line : '\n' ∉ op
  head : ∀ c ∈ op.head?, Text.isBlank c = false
  last : op.getLast? = some ']'

/-- Without blanks no word stands in front of a text. -/
lemma afterWord?_of_forall (h : ∀ c ∈ t, Text.isBlank c = false) (word : String) :
    afterWord? word t = none := by
  by_contra hsome
  obtain ⟨u, hu⟩ := Option.ne_none_iff_exists'.mp hsome
  obtain ⟨⟨_, ⟨w, gap, rfl, -, hgap, hblank⟩, rfl⟩, -⟩ := isWordGap_of_afterWord? hu
  obtain ⟨c, gap, rfl⟩ := List.exists_cons_of_ne_nil hgap
  exact nomatch (h c (by simp)).symm.trans (hblank c List.mem_cons_self)

lemma width?_of_forall (h : ∀ c ∈ t, Text.isBlank c = false) : width? t = none := by
  rw [width?, List.findSome?_eq_none_iff]
  intro p _
  rw [afterWord?_of_forall h]
  rfl

/-- Without blanks there is no hint. -/
lemma isPlainOperand_of_forall (h : ∀ c ∈ t, Text.isBlank c = false)
    (hlast : t.getLast? = some ']') : IsPlainOperand t where
  width := width?_of_forall h
  ptr := afterWord?_of_forall h "ptr"
  line := fun hmem => absurd (h _ hmem) (by decide)
  head := fun c hc => h c (List.mem_of_mem_head? hc)
  last := hlast

/-- A text in brackets does not begin with a word. -/
lemma isPlainOperand_of_bracket (hline : '\n' ∉ t) : IsPlainOperand ('[' :: (t ++ [']'])) where
  width := rfl
  ptr := rfl
  line := by simp [hline]
  head := by
    rintro c ⟨⟩
    decide
  last := by rw [← List.cons_append, List.getLast?_concat]

/-- A hint in front of a memory operand gives it the width. -/
lemma readOperand_front {line bits : Option ℕ} (hs : IsFront bits s) (ht : IsPlainOperand t) :
    readOperand line (s ++ t) = readBracketed line bits t := by
  have hlast : ∀ c ∈ t.getLast?, Text.isBlank c = false := by
    rw [ht.last]
    decide
  cases bits with
  | none =>
    obtain rfl : s = [] := hs
    exact readOperand_of_plain ht.last ht.width
  | some bits => exact readOperand_of_hinted ht.last (width?_hint hs ht.ptr ht.line ht.head hlast)

lemma isBlank_of_getLast? {bits : ℕ} (hs : IsHint bits s) :
    ∀ c ∈ s.getLast?, Text.isBlank c = true := by
  have hgap : ∀ {word : String} {front s : List Char}, IsWordGap word s →
      ∀ c ∈ (front ++ s).getLast?, Text.isBlank c = true := by
    rintro word front s ⟨w, gap, rfl, -, hgap, hblank⟩ c hc
    rw [← List.append_assoc, List.getLast?_append_of_ne_nil _ hgap] at hc
    exact hblank c (List.mem_of_getLast? hc)
  cases hs with
  | word _ hs => exact @hgap _ [] _ hs
  | ptr _ _ ht => exact hgap ht

/-- An operand that ends in a bracket is read as one behind a hint, or without any. -/
lemma exists_front {line : Option ℕ} (hlast : s.getLast? = some ']') :
    ∃ bits front op, IsFront bits front ∧ s = front ++ op ∧ op.getLast? = some ']' ∧
      readOperand line s = readBracketed line bits op := by
  cases hwidth : width? s with
  | none => exact ⟨none, [], s, rfl, rfl, hlast, readOperand_of_plain hlast hwidth⟩
  | some p =>
    obtain ⟨bits, op⟩ := p
    have hblank : ∀ c ∈ s.getLast?, Text.isBlank c = false := by
      rw [hlast]
      decide
    obtain ⟨hint, hhint, rfl⟩ := exists_hint_of_width? hwidth hblank
    have hne : op ≠ [] := by
      rintro rfl
      rw [List.append_nil] at hlast
      exact absurd (isBlank_of_getLast? hhint _ hlast) (by decide)
    rw [List.getLast?_append_of_ne_nil _ hne] at hlast
    exact ⟨some bits, hint, op, hhint, rfl, hlast, readOperand_of_hinted hlast hwidth⟩

end AsmBridge.Source
