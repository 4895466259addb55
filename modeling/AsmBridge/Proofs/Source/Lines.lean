import AsmBridge.Proofs.Function.Extraction
import AsmBridge.Proofs.Source.Addresses
import AsmBridge.Proofs.Source.Stops

/-!
# Lines of a unit

A line of the source holds one directive or one instruction at most, so that those of a unit stand
on ascending lines (`readUnit_ascends`), and so do those of the body of a function
(`ascends_of_extractFunctions`). A problem that is found when an instruction is read is one of the
line of the instruction (`line_of_problem`).
-/

namespace AsmBridge

/-- The first line is known and stands before the second one, which is known too. -/
def IsBefore (a b : Option ℕ) : Prop := ∃ m n, a = some m ∧ b = some n ∧ m < n

/-- The line of a directive or an instruction. -/
def BodyItem.statementLine? : BodyItem → Option (Option ℕ)
  | .directive d => some d.line
  | .instruction i => some i.line
  | _ => none

/-- The lines of the directives and the instructions among records. -/
def statementLines (rs : List Record) : List (Option ℕ) :=
  rs.filterMap fun r => r.item.statementLine?

namespace Source

variable {line : Option ℕ}

/-- An instruction that is read is one of its line, and so is a problem that is found in it. -/
lemma line_of_readInstruction {s : List Char} {i : Instruction}
    (h : readInstruction line s = .ok i) : i.line = line ∧ ∀ d ∈ i.problem, d.line = line := by
  have hproblem : ∀ {texts : List (List Char)} {read : Operands},
      texts.foldlM (Operands.add line) {} = .ok read → ∀ d ∈ read.problem, d.line = line := by
    intro texts read h
    refine foldlM_induction (fun s : Operands => ∀ d ∈ s.problem, d.line = line) ?_ h (by simp)
    intro s op s' hadd hs
    unfold Operands.add at hadd
    split at hadd
    · rw [← Except.ok.inj hadd]
      exact hs
    · rename_i d hd
      split_ifs at hadd
      rw [← Except.ok.inj hadd]
      rintro e ⟨⟩
      exact line_of_readOperand hd
    · cases hadd
  obtain ⟨⟨mark, mnemonic, ops⟩, -, h⟩ := bind_eq_ok.mp h
  obtain ⟨read, hread, h⟩ := bind_eq_ok.mp h
  obtain rfl := pure_eq_ok.mp h
  refine ⟨rfl, ?_⟩
  unfold readOperands at hread
  split at hread
  · rw [← Except.ok.inj hread]
    simp
  · split_ifs at hread
    · rw [← Except.ok.inj hread]
      simp
    · obtain ⟨texts, -, hread⟩ := bind_eq_ok.mp hread
      exact hproblem hread

/-- A record that is read from a line is a statement on it. -/
lemma statementLine?_of_isReadAt {n : ℕ} {r : Record} (h : State.IsReadAt n r) :
    r.item.statementLine? = some (some n) := by
  cases r with
  | label l => exact h.elim
  | directive d => exact congrArg some h
  | instruction i =>
    obtain ⟨statement, j, hread, heq⟩ := h
    rw [Record.item, BodyItem.statementLine?, heq]
    exact congrArg some (line_of_readInstruction hread).1

/-! ## The order of lines -/

namespace State

/-- The statements that are read stand on ascending lines before the given one, and problems are
those of their lines. The records are kept last first. -/
structure IsInOrder (s : State) (n : ℕ) : Prop where
  before : ∀ line ∈ statementLines s.records, IsBefore line (some n)
  descends : (statementLines s.records).Pairwise fun a b => IsBefore b a
  problem : ∀ i, .instruction i ∈ s.records → ∀ d ∈ i.problem, d.line = i.line

variable {s s' : State}

/-- What a line adds to the lines of statements is itself, if it has a statement. -/
lemma statementLines_line {p : List Char × ℕ} (h : s.line p = .ok s') :
    statementLines s'.records = statementLines s.records ∨
      statementLines s'.records = some p.2 :: statementLines s.records := by
  obtain ⟨new, ls, hrecords, hnew⟩ := records_line h
  have hlabels : statementLines (ls.map Record.label) = [] := by
    simp [statementLines, Record.item, BodyItem.statementLine?]
  rw [hrecords, statementLines, List.filterMap_append, List.filterMap_append]
  rw [statementLines] at hlabels ⊢
  rw [hlabels]
  cases new with
  | none => exact .inl rfl
  | some r =>
    refine .inr ?_
    simp [statementLine?_of_isReadAt (hnew r rfl)]

/-- One line more. -/
lemma IsInOrder.step {source : List Char} {n : ℕ} (hs : s.IsInOrder n)
    (h : s.line (source, n) = .ok s') : s'.IsInOrder (n + 1) := by
  have hnext : ∀ line ∈ statementLines s.records, IsBefore line (some (n + 1)) := by
    intro line hline
    obtain ⟨m, k, rfl, hk, hlt⟩ := hs.before line hline
    obtain rfl := Option.some.inj hk
    exact ⟨m, n + 1, rfl, rfl, by omega⟩
  refine ⟨?_, ?_, ?_⟩
  · rcases statementLines_line h with heq | heq <;> rw [heq]
    · exact hnext
    · exact List.forall_mem_cons.mpr ⟨⟨n, n + 1, rfl, rfl, n.lt_succ_self⟩, hnext⟩
  · rcases statementLines_line h with heq | heq <;> rw [heq]
    · exact hs.descends
    · exact List.pairwise_cons.mpr ⟨hs.before, hs.descends⟩
  · obtain ⟨new, ls, hrecords, hnew⟩ := records_line h
    intro i hi
    rw [hrecords, List.mem_append, List.mem_append, Option.mem_toList] at hi
    rcases hi with hi | hi | hi
    · obtain ⟨statement, j, hread, heq⟩ := hnew _ hi
      obtain ⟨hline, hproblem⟩ := line_of_readInstruction hread
      rw [heq]
      exact fun d hd => (hproblem d hd).trans hline.symm
    · obtain ⟨l, -, heq⟩ := List.mem_map.mp hi
      cases heq
    · exact hs.problem i hi

/-- A row of lines. -/
lemma exists_isInOrder {lines : List (List Char)} {n : ℕ} (hs : s.IsInOrder n)
    (h : (lines.zipIdx n).foldlM State.line s = .ok s') : ∃ m, s'.IsInOrder m := by
  induction lines generalizing n s with
  | nil =>
    obtain rfl := pure_eq_ok.mp h
    exact ⟨n, hs⟩
  | cons source lines ih =>
    rw [List.zipIdx_cons, List.foldlM_cons] at h
    obtain ⟨s₁, hline, h⟩ := bind_eq_ok.mp h
    exact ih (hs.step hline) h

end State

end Source

section Unit

variable {text : String} {records : List Record}

/-- The records of a unit are those of a state in order. -/
lemma exists_isInOrder_of_readUnit (h : Source.readUnit text = .ok records) :
    ∃ s : Source.State, records = s.records.reverse ∧ ∃ n, s.IsInOrder n := by
  obtain ⟨s, hfold, rfl⟩ := map_eq_ok.mp h
  refine ⟨s, rfl, Source.State.exists_isInOrder (n := 1) ⟨?_, ?_, ?_⟩ hfold⟩
  · exact fun line hline => (nomatch hline)
  · exact .nil
  · exact fun i hi => (nomatch hi)

/-- The statements of a unit stand on ascending lines. -/
lemma readUnit_ascends (h : Source.readUnit text = .ok records) :
    (statementLines records).Pairwise IsBefore := by
  obtain ⟨s, rfl, n, hs⟩ := exists_isInOrder_of_readUnit h
  rw [statementLines, List.filterMap_reverse, List.pairwise_reverse]
  exact hs.descends

/-- A problem of an instruction is one of its line. -/
lemma line_of_problem (h : Source.readUnit text = .ok records) {i : Instruction}
    (hi : .instruction i ∈ records) : ∀ d ∈ i.problem, d.line = i.line := by
  obtain ⟨s, rfl, n, hs⟩ := exists_isInOrder_of_readUnit h
  exact hs.problem i (List.mem_reverse.mp hi)

/-- The records of an extent are some of those of the unit, in their order. -/
lemma Divided.records_sublist {es : List Extent} (h : Divided records es) {e : Extent}
    (he : e ∈ es) : e.records.Sublist records := by
  induction h with
  | nil => cases he
  | gap _ _ _ ih => exact (ih he).cons _
  | @extent l rs rest es _ _ _ _ ih =>
    rcases List.mem_cons.mp he with rfl | he
    · exact ((List.sublist_append_left rs rest).cons _)
    · exact ((ih he).trans (List.sublist_append_right rs rest)).cons _

/-- The statements of a function stand on ascending lines. -/
lemma ascends_of_extractFunctions {functions : List SourceFunction}
    (h : Source.readUnit text = .ok records)
    (hfunctions : extractFunctions records = .ok functions) {f : SourceFunction}
    (hf : f ∈ functions) : (f.body.filterMap (·.statementLine?)).Pairwise IsBefore := by
  obtain ⟨extents, hdivided, hfs⟩ := exists_extents hfunctions
  obtain ⟨e, he, hfe⟩ := exists_of_mem_left hfs hf
  refine (readUnit_ascends h).sublist ?_
  refine (hfe.body.filterMap_sublist fun _ => rfl).trans ?_
  exact (hdivided.records_sublist he).filterMap _

end Unit

end AsmBridge
