import AsmBridge.Source.Instruction
import AsmBridge.Proofs.Outcome
import AsmBridge.Proofs.Text.Cut

/-!
# Rows of operands

The texts of operands stand in a row with a comma and a space between two of them. A row is divided
into these texts again (`operandsFrom_row`), which are read one by one (`readOperands_row`).
-/

namespace AsmBridge.Source

variable {line : Option ℕ} {s t : List Char}

/-! ## Pieces -/

/-- A text without brackets goes to the operand that is being read, provided that it has no commas
either or brackets are open. -/
lemma operandsFrom_append {depth : ℤ} (hs : ∀ c ∈ s, (depth = 0 → c ≠ ',') ∧ c ≠ '[' ∧ c ≠ ']')
    (run rest : List Char) :
    operandsFrom depth run (s ++ rest) = operandsFrom depth (s.reverse ++ run) rest := by
  induction s generalizing run with
  | nil => rfl
  | cons c s ih =>
    obtain ⟨⟨hcomma, hopen, hclose⟩, hs⟩ := List.forall_mem_cons.mp hs
    have hrest := ih hs (c :: run)
    have hinside : ¬ (c = ',' ∧ depth = 0) := fun h => hcomma h.2 h.1
    rw [List.reverse_cons, List.append_assoc, List.singleton_append]
    simpa [operandsFrom, hinside, hopen, hclose] using hrest

/-- The text is not empty and has no blanks at its ends. -/
structure IsTrimmed (s : List Char) : Prop where
  ne_nil : s ≠ []
  head : ∀ c ∈ s.head?, Text.isBlank c = false
  last : ∀ c ∈ s.getLast?, Text.isBlank c = false

/-- One text in front of another one, with anything between them. -/
lemma IsTrimmed.append (hs : IsTrimmed s) (ht : IsTrimmed t) (sep : List Char) :
    IsTrimmed (s ++ sep ++ t) where
  ne_nil := by simp [hs.ne_nil]
  head := by
    rw [List.append_assoc, List.head?_append_of_ne_nil _ hs.ne_nil]
    exact hs.head
  last := by
    rw [List.getLast?_append_of_ne_nil _ ht.ne_nil]
    exact ht.last

lemma IsTrimmed.trim_eq (hs : IsTrimmed s) : Text.trim s = s := Text.trim_eq_self hs.head hs.last

/-- The text of an operand as it may stand in a row: the commas in it are inside of brackets. -/
structure IsPiece (s : List Char) : Prop extends IsTrimmed s where
  passes : ∀ run rest, operandsFrom 0 run (s ++ rest) = operandsFrom 0 (s.reverse ++ run) rest

/-- The text of an operand without commas and brackets. -/
structure IsOperandText (s : List Char) : Prop where
  ne_nil : s ≠ []
  head : ∀ c ∈ s.head?, Text.isBlank c = false
  last : ∀ c ∈ s.getLast?, Text.isBlank c = false
  plain : ∀ c ∈ s, c ≠ ',' ∧ c ≠ '[' ∧ c ≠ ']'

lemma IsOperandText.isPiece (hs : IsOperandText s) : IsPiece s :=
  ⟨⟨hs.ne_nil, hs.head, hs.last⟩,
    operandsFrom_append fun c hc => (hs.plain c hc).imp_left fun hcomma _ => hcomma⟩

/-- A text in brackets, with a text without commas and brackets in front of them. -/
lemma isPiece_of_bracket {front inner : List Char} (hhead : ∀ c ∈ front.head?, Text.isBlank c = false)
    (hfront : ∀ c ∈ front, c ≠ ',' ∧ c ≠ '[' ∧ c ≠ ']') (hinner : ∀ c ∈ inner, c ≠ '[' ∧ c ≠ ']') :
    IsPiece (front ++ '[' :: (inner ++ [']'])) := by
  refine ⟨⟨by simp, fun c hc => ?_, fun c hc => ?_⟩, fun run rest => ?_⟩
  · cases front with
    | nil => exact Option.some.inj hc ▸ rfl
    | cons d front => exact hhead c hc
  · rw [← List.cons_append, ← List.append_assoc, List.getLast?_concat] at hc
    exact Option.some.inj hc ▸ rfl
  · have hopen : ∀ run s, operandsFrom 0 run ('[' :: s) = operandsFrom 1 ('[' :: run) s :=
      fun _ _ => rfl
    have hclose : ∀ run s, operandsFrom 1 run (']' :: s) = operandsFrom 0 (']' :: run) s :=
      fun _ _ => rfl
    have hfront' := @operandsFrom_append front 0 fun c hc =>
      (hfront c hc).imp_left fun hcomma _ => hcomma
    have hinner' := @operandsFrom_append inner 1 fun c hc => ⟨(nomatch ·), hinner c hc⟩
    rw [List.append_assoc, hfront', List.cons_append, hopen, List.append_assoc, hinner',
      List.singleton_append, hclose]
    simp

/-- A row is divided into its pieces. -/
lemma operandsFrom_row {front : List Char} (hfront : ∀ c ∈ front, Text.isBlank c = true)
    {ts : List (List Char)} (h : ∀ u ∈ t :: ts, IsPiece u) :
    operandsFrom 0 front.reverse ([',', ' '].intercalate (t :: ts)) = t :: ts := by
  have hpiece : ∀ {front u : List Char}, (∀ c ∈ front, Text.isBlank c = true) → IsPiece u →
      Text.trim (u.reverse ++ front.reverse).reverse = u := by
    intro front u hfront hu
    rw [List.reverse_append, List.reverse_reverse, List.reverse_reverse,
      Text.trim_append_left hfront, hu.trim_eq]
  induction ts generalizing t front with
  | nil =>
    have ht := h t List.mem_cons_self
    have hpasses := ht.passes front.reverse []
    rw [List.append_nil] at hpasses
    rw [List.intercalate_singleton, hpasses, operandsFrom, hpiece hfront ht]
  | cons u us ih =>
    obtain ⟨ht, hrest⟩ := List.forall_mem_cons.mp h
    have hspace : ∀ c ∈ [' '], Text.isBlank c = true := by decide
    have hcomma : ∀ run s, operandsFrom 0 run ([',', ' '] ++ s) =
        Text.trim run.reverse :: operandsFrom 0 [' '].reverse s := fun _ _ => rfl
    rw [List.intercalate_cons_cons, List.append_assoc, ht.passes, hcomma, hpiece hfront ht,
      ih hspace hrest]

/-! ## Reading -/

/-- The operand texts of a row are read without a problem just if each of them is read. -/
lemma foldlM_add_eq_ok {ts : List (List Char)} {us ws : List Operand} :
    ts.foldlM (Operands.add line) ⟨us, none⟩ = .ok ⟨ws, none⟩ ↔
      ∃ os, List.Forall₂ (fun t o => readOperand line t = .ok o) ts os ∧ ws = us ++ os := by
  have hadd : ∀ {t : List Char} {us : List Operand} {read : Operands},
      Operands.add line ⟨us, none⟩ t = .ok read →
      (∃ o, readOperand line t = .ok o ∧ read = ⟨us ++ [o], none⟩) ∨ read.problem.isSome = true := by
    intro t us read h
    unfold Operands.add at h
    split at h
    · rename_i o ho
      exact .inl ⟨o, ho, (Except.ok.inj h).symm⟩
    · split_ifs at h
      rw [← Except.ok.inj h]
      exact .inr rfl
    · cases h
  have hproblem : ∀ {ts : List (List Char)} {read read' : Operands},
      ts.foldlM (Operands.add line) read = .ok read' → read.problem.isSome = true →
      read'.problem.isSome = true := by
    intro ts read read' h hread
    refine foldlM_induction (fun s : Operands => s.problem.isSome = true) ?_ h hread
    intro s t s' hs h
    unfold Operands.add at hs
    split at hs
    · rw [← Except.ok.inj hs]
      exact h
    · split_ifs at hs
      rw [← Except.ok.inj hs]
      rfl
    · cases hs
  induction ts generalizing us with
  | nil =>
    constructor
    · intro h
      have hsame := congrArg Operands.operands (Except.ok.inj h)
      exact ⟨[], .nil, by rw [List.append_nil]; exact hsame.symm⟩
    · rintro ⟨_, ⟨⟩, rfl⟩
      rw [List.append_nil]
      rfl
  | cons t ts ih =>
    rw [foldlM_cons_eq_ok]
    constructor
    · rintro ⟨read, hread, h⟩
      rcases hadd hread with ⟨o, ho, rfl⟩ | hsome
      · obtain ⟨os, hos, rfl⟩ := ih.mp h
        exact ⟨o :: os, .cons ho hos, by simp⟩
      · cases hproblem h hsome
    · rintro ⟨_, _ | @⟨_, o, _, os, ho, hos⟩, rfl⟩
      exact ⟨⟨us ++ [o], none⟩, by rw [Operands.add, ho], ih.mpr ⟨os, hos, by simp⟩⟩

/-- The row of operand texts, if there are any. -/
def row? (ts : List (List Char)) : Option (List Char) :=
  if ts = [] then none else some ([',', ' '].intercalate ts)

lemma isTrimmed_row {ts : List (List Char)} (h : ∀ u ∈ t :: ts, IsPiece u) :
    IsTrimmed ([',', ' '].intercalate (t :: ts)) := by
  induction ts generalizing t with
  | nil =>
    rw [List.intercalate_singleton]
    exact (h t List.mem_cons_self).toIsTrimmed
  | cons u us ih =>
    obtain ⟨ht, hrest⟩ := List.forall_mem_cons.mp h
    rw [List.intercalate_cons_cons]
    exact ht.toIsTrimmed.append (ih hrest) _

/-- A row stands on one line if its pieces do. -/
lemma notMem_row {ts : List (List Char)} (h : ∀ u ∈ ts, '\n' ∉ u) :
    '\n' ∉ [',', ' '].intercalate ts := by
  intro hmem
  rcases Text.mem_of_mem_intercalate hmem with hsep | ⟨u, hu, hmem⟩
  · exact absurd hsep (by decide)
  · exact h u hu hmem

/-- The operands of a row are read one by one. -/
lemma readOperands_row {ts : List (List Char)} (h : ∀ u ∈ ts, IsPiece u) :
    readOperands line (row? ts) = ts.foldlM (Operands.add line) {} := by
  cases ts with
  | nil => rfl
  | cons t ts =>
    have hrow := isTrimmed_row h
    have hpieces : operandsFrom 0 [] ([',', ' '].intercalate (t :: ts)) = t :: ts :=
      @operandsFrom_row _ [] (by simp) _ h
    have hfull : (t :: ts).any (·.isEmpty) = false := by
      rw [List.any_eq_false]
      exact fun u hu => by simpa using (h u hu).ne_nil
    have hsplit : splitOperands line ([',', ' '].intercalate (t :: ts)) = .ok (t :: ts) := by
      rw [splitOperands, hpieces, hfull]
      rfl
    rw [row?, if_neg (List.cons_ne_nil t ts), readOperands, hrow.trim_eq,
      List.isEmpty_eq_false_iff.mpr hrow.ne_nil, if_neg Bool.false_ne_true, hsplit]
    rfl

end AsmBridge.Source
