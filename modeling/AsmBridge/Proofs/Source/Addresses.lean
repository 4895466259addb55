import AsmBridge.Proofs.Source.Steps

/-!
# The addresses of a unit

An address that is read from the text of a unit has only certain shapes: the width of its datum is
left open or is one of those that have a word, and its registers are 64-bit ones or the instruction
pointer (`readUnit_isReadable`).
-/

namespace AsmBridge

/-- The address has a shape that the text of a unit can give it. -/
structure Address.IsReadable (a : Address) : Prop where
  bits : ∀ n ∈ a.bits, n ∈ Source.widthWords.map (·.2)
  registers : ∀ r ∈ a.base.toList ++ a.index.toList, r = .rip ∨ r.isAddressing = true

/-- The defect is one of a text: it cannot be parsed, or a vector is the index of an address. -/
def Defect.IsOfText (d : Defect) : Prop := d.kind = .parse ∨ ∃ op, d = .vectorIndexed op

namespace Source

variable {line : Option Nat}

/-- A sum is refused with a defect, or its registers are right and its address has these with the
scale of the sum. -/
lemma address_cases (s : Sum) (op : String) (bits : Option Nat) :
    (∃ text d, s.address line op bits = .error (defectAt line text d) ∧ d.IsOfText) ∨
      (s.wrongRegister? = none ∧ ∃ scale, s.scale = scale.map (fun c => (c.factor : Int)) ∧
        s.address line op bits = .ok (.ofParts s.base s.index scale s.disp bits s.symbol)) := by
  have hscale : ∀ n scale, Scale.ofFactor? n = some scale →
      some n = (some scale).map fun c => (c.factor : Int) := by
    intro n scale hfactor
    have hfound := List.find?_some hfactor
    rw [beq_iff_eq] at hfound
    rw [Option.map_some, hfound]
  unfold Sum.address
  dsimp only
  split <;> split_ifs
  all_goals try first
    | exact .inl ⟨_, _, rfl, .inl rfl⟩
    | exact .inl ⟨_, _, rfl, .inr ⟨_, rfl⟩⟩
  -- what is left has passed the checks of the symbol and of the index
  all_goals
    cases s.wrongRegister? with
    | some r => exact .inl ⟨_, _, rfl, .inl rfl⟩
    | none =>
      cases s.scale with
      | none => exact .inr ⟨rfl, none, rfl, rfl⟩
      | some n =>
        cases hfactor : Scale.ofFactor? n with
        | none => exact .inl ⟨_, _, by simp only [hfactor]; rfl, .inl rfl⟩
        | some scale =>
          exact .inr ⟨rfl, some scale, hscale n scale hfactor, by simp only [hfactor]; rfl⟩

/-- A sum without wrong registers gives an address of such registers. -/
lemma address_eq_ok {s : Sum} {op : String} {bits : Option Nat} {a : Address}
    (h : s.address line op bits = .ok a) :
    a.bits = bits ∧ ∀ r ∈ a.base.toList ++ a.index.toList, r = .rip ∨ r.isAddressing = true := by
  rcases address_cases s op bits with ⟨text, d, hrefused, -⟩ | ⟨hwrong, scale, -, hok⟩
  · cases hrefused.symm.trans h
  · obtain rfl := Except.ok.inj (hok.symm.trans h)
    refine ⟨rfl, fun r hr => ?_⟩
    have hr := List.find?_eq_none.mp hwrong r hr
    simp only [Bool.and_eq_true, bne_iff_ne, ne_eq, Bool.not_eq_eq_eq_not, Bool.not_true,
      not_and, Bool.not_eq_false] at hr
    exact or_iff_not_imp_left.mpr hr

/-- A width that an operand begins with has a word. -/
lemma mem_widthWords_of_width? {op : List Char} {p : ℕ × List Char} (h : width? op = some p) :
    p.1 ∈ widthWords.map (·.2) := by
  obtain ⟨w, hw, h⟩ := List.exists_of_findSome?_eq_some h
  obtain ⟨after, -, h⟩ := Option.bind_eq_some_iff.mp h
  obtain ⟨line, -, h⟩ := Option.bind_eq_some_iff.mp h
  obtain rfl := Option.some.inj h
  exact List.mem_map_of_mem hw

/-- A memory operand is an address with the width that it begins with. -/
lemma readOperand_isReadable {source : List Char} {a : Address}
    (h : readOperand line source = .ok (.mem a)) : a.IsReadable := by
  have haddress : ∀ {bits op}, (readAddress line bits op).map Operand.mem = .ok (.mem a) →
      (∀ n ∈ bits, n ∈ widthWords.map (·.2)) → a.IsReadable := by
    intro bits op hmem hbits
    obtain ⟨a', hread, ha⟩ := map_eq_ok.mp hmem
    obtain rfl := Operand.mem.inj ha
    unfold readAddress at hread
    dsimp only at hread
    split at hread
    · cases hread
    · obtain ⟨s, -, hsum⟩ := bind_eq_ok.mp hread
      obtain ⟨rfl, hregisters⟩ := address_eq_ok hsum
      exact ⟨hbits, hregisters⟩
  unfold readOperand at h
  dsimp only at h
  cases hwidth : width? source with
  | some p =>
    simp only [hwidth, Option.isSome_some, if_true] at h
    split_ifs at h
    refine haddress h ?_
    rintro n ⟨⟩
    exact mem_widthWords_of_width? hwidth
  | none =>
    simp only [hwidth, Option.isSome_none, Bool.false_eq_true, if_false] at h
    split at h
    · cases h
    split at h
    · cases h
    split at h
    · exact haddress h (by simp)
    split at h
    · cases h
    · cases h
    split at h
    · obtain ⟨v, -, h⟩ := map_eq_ok.mp h
      cases h
    · split at h <;> cases h

/-- The addresses of an instruction that is read. -/
lemma readInstruction_isReadable {s : List Char} {i : Instruction}
    (h : readInstruction line s = .ok i) : ∀ a ∈ i.addresses, a.IsReadable := by
  have hoperands : ∀ {texts : List (List Char)} {read : Operands},
      texts.foldlM (Operands.add line) {} = .ok read →
      ∀ a, .mem a ∈ read.operands → a.IsReadable := by
    intro texts read h
    refine foldlM_induction (fun s : Operands => ∀ a, .mem a ∈ s.operands → a.IsReadable)
      ?_ h (by simp)
    intro s op s' hadd hs a ha
    unfold Operands.add at hadd
    split at hadd
    · rename_i o ho
      rw [← Except.ok.inj hadd, List.mem_append, List.mem_singleton] at ha
      rcases ha with ha | rfl
      · exact hs a ha
      · exact readOperand_isReadable ho
    · split_ifs at hadd
      rw [← Except.ok.inj hadd] at ha
      exact hs a ha
    · cases hadd
  obtain ⟨⟨mark, mnemonic, ops⟩, -, h⟩ := bind_eq_ok.mp h
  obtain ⟨read, hread, h⟩ := bind_eq_ok.mp h
  obtain rfl := pure_eq_ok.mp h
  intro a ha
  obtain ⟨o, ho, hoa⟩ := List.mem_filterMap.mp ha
  obtain rfl : o = .mem a := by
    cases o <;> simp [Operand.address?] at hoa
    rw [hoa]
  unfold readOperands at hread
  split at hread
  · rw [← Except.ok.inj hread] at ho
    cases ho
  · split_ifs at hread
    · rw [← Except.ok.inj hread] at ho
      cases ho
    · obtain ⟨texts, -, hread⟩ := bind_eq_ok.mp hread
      exact hoperands hread a ho

end Source

namespace Source.State

variable {s s' : State}

/-- The record is a directive or an instruction that is read from the line. -/
def IsReadAt (line : ℕ) : Record → Prop
  | .label _ => False
  | .directive d => d.line = some line
  | .instruction i => ∃ statement j, readInstruction (some line) statement = .ok j ∧
      i = { j with comment := i.comment, after := i.after, sect := i.sect }

/-- What a line adds to the records: its labels, and then one directive or instruction at most. -/
lemma records_line {p : List Char × ℕ} (h : s.line p = .ok s') :
    ∃ (new : Option Record) (ls : List Label),
      s'.records = new.toList ++ (ls.map .label ++ s.records) ∧ ∀ r ∈ new, IsReadAt p.2 r := by
  obtain ⟨source, n⟩ := p
  obtain ⟨ls, hls⟩ : ∃ ls : List Label,
      (s.withLabels source n).records = ls.map .label ++ s.records := by
    rw [withLabels_eq]
    exact ⟨_, congrArg (· ++ s.records) List.map_map.symm⟩
  cases line_eq_ok.mp h with
  | labels _ => exact ⟨none, ls, hls, by simp⟩
  | directive _ hswitch _ =>
    refine ⟨some _, ls, congrArg _ ((switch_records hswitch).trans hls), ?_⟩
    rintro r ⟨⟩
    rfl
  | instruction _ _ hread =>
    refine ⟨some _, ls, congrArg _ hls, ?_⟩
    rintro r ⟨⟩
    exact ⟨_, _, hread, rfl⟩

/-- The instructions among the records have addresses that can be read. -/
def IsReadable (s : State) : Prop :=
  ∀ i, .instruction i ∈ s.records → ∀ a ∈ i.addresses, a.IsReadable

/-- One line more. -/
lemma line_isReadable {p : List Char × ℕ} (h : s.line p = .ok s') (hs : s.IsReadable) :
    s'.IsReadable := by
  obtain ⟨new, ls, hrecords, hnew⟩ := records_line h
  intro i hi
  rw [hrecords, List.mem_append, List.mem_append, Option.mem_toList] at hi
  rcases hi with hi | hi | hi
  · obtain ⟨statement, j, hread, heq⟩ := hnew _ hi
    rw [heq]
    exact fun a ha => readInstruction_isReadable hread a ha
  · obtain ⟨l, -, heq⟩ := List.mem_map.mp hi
    cases heq
  · exact hs i hi

end Source.State

/-- The addresses of a unit that is read. -/
theorem readUnit_isReadable {text : String} {records : List Record}
    (h : Source.readUnit text = .ok records) {i : Instruction} (hi : .instruction i ∈ records) :
    ∀ a ∈ i.addresses, a.IsReadable := by
  obtain ⟨s, hfold, rfl⟩ := map_eq_ok.mp h
  have hall := foldlM_induction Source.State.IsReadable
    (fun _ _ _ hline hs => Source.State.line_isReadable hline hs) hfold
    (fun i hi => by simp at hi)
  exact hall i (List.mem_reverse.mp hi)

end AsmBridge
