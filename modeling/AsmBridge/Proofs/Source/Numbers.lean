import AsmBridge.Proofs.Source.Rows
import AsmBridge.Proofs.Text.Digits

/-!
# Numbers among the operands of a statement

A number below zero may be written in hexadecimal with any number of digits, and is read as an
immediate (`Source.readOperand_negative`). Two operands with a comma between them are read one by
one (`Source.readOperands_pair`), so that the number may stand behind a register
(`Source.readInstruction_negative`).
-/

namespace AsmBridge.Source

/-- A hexadecimal digit is read as one, and is no blank around a number. -/
lemma digit_of_mem_hexDigits {width n : ℕ} {c : Char} (h : c ∈ Text.hexDigits width n) :
    Text.isNumberBlank c = false ∧ Text.asciiDigit c = c ∧
      (Text.digitIn? 16 c).isSome = true := by
  obtain ⟨d, hd, rfl⟩ := mem_hexDigits h
  interval_cases d <;> decide

section Digits

variable {width n : ℕ}

/-- The names of the registers are letters and digits, of which a letter is the first. -/
lemma isAlphanum_of_mem_names : ∀ p ∈ Register.names, Text.chars p.1 ≠ [] ∧
    (∀ c ∈ (Text.chars p.1).head?, c.isDigit = false) ∧
      ∀ c ∈ Text.chars p.1, c.isAlphanum = true ∧ c ≠ 'k' := by
  decide +kernel

/-- What is read as a register is one of the names, in letters of either case. -/
lemma exists_name_of_register? {t : List Char} {r : Register} (h : register? t = some r) :
    ∃ p ∈ Register.names, Text.chars p.1 = t.map Text.lowerChar := by
  obtain ⟨p, hp, -⟩ := Option.map_eq_some_iff.mp h
  have hname : p.1 = Text.lower (String.ofList t) := by simpa using List.find?_some hp
  refine ⟨p, List.mem_of_find?_eq_some hp, ?_⟩
  rw [hname, Text.lower, Text.chars_ofList, Text.chars_ofList]

/-- No register has a sign in its name. -/
lemma register?_of_sign (s : List Char) : register? ('-' :: s) = none := by
  refine Option.eq_none_iff_forall_not_mem.mpr fun r hr => ?_
  obtain ⟨p, hp, hname⟩ := exists_name_of_register? hr
  have hsign : '-' ∈ Text.chars p.1 := hname ▸ List.mem_cons_self
  exact absurd ((isAlphanum_of_mem_names p hp).2.2 _ hsign).1 (by decide)

/-- A text without blanks at its ends is trimmed already. -/
lemma trimNumber_eq_self {s : List Char} (hhead : ∀ c ∈ s.head?, Text.isNumberBlank c = false)
    (hlast : ∀ c ∈ s.getLast?, Text.isNumberBlank c = false) : Text.trimNumber s = s := by
  have hdrop : ∀ t : List Char, (∀ c ∈ t.head?, Text.isNumberBlank c = false) →
      t.dropWhile Text.isNumberBlank = t := by
    intro t ht
    cases t with
    | nil => rfl
    | cons c t => exact List.dropWhile_cons_of_neg (by simp [ht c rfl])
  have hreverse : ∀ c ∈ s.reverse.head?, Text.isNumberBlank c = false := by
    rwa [List.head?_reverse]
  rw [Text.trimNumber, hdrop s hhead, hdrop s.reverse hreverse, List.reverse_reverse]

/-- Digits behind a sign and `0x` are a number. -/
lemma isNumber_hexDigits : isNumber ('-' :: '0' :: 'x' :: Text.hexDigits width n) = true := by
  have hlast : (('0' :: 'x' :: Text.hexDigits width n).getLast? == some '\n') = false := by
    rw [beq_eq_false_iff_ne]
    intro hend
    have hmem := mem_hexDigits_of_getLast? ['0', 'x'] hend
    exact absurd (isAlphanum_of_mem_hexDigits hmem).1 (by decide)
  have hall : (Text.hexDigits width n).all (fun c => (Text.digitIn? 16 c).isSome) = true :=
    List.all_eq_true.mpr fun c hc => (digit_of_mem_hexDigits hc).2.2
  have hne : (Text.hexDigits width n).isEmpty = false := by
    rw [List.isEmpty_eq_false_iff]
    exact hexDigits_ne_nil width n
  rw [isNumber, hlast, if_neg Bool.false_ne_true]
  change Text.someAll (fun c => (Text.digitIn? 16 c).isSome) (Text.hexDigits width n) = true
  rw [Text.someAll, hall, hne]
  rfl

/-- A number below zero is read from its hexadecimal digits. -/
lemma number_hexDigits :
    number ('-' :: '0' :: 'x' :: Text.hexDigits width n) = .ok (-(n : ℤ)) := by
  have htrim : Text.trimNumber ('0' :: 'x' :: Text.hexDigits width n) =
      '0' :: 'x' :: Text.hexDigits width n := by
    have hzero : Text.isNumberBlank '0' = false := by decide
    refine trimNumber_eq_self (by simpa using hzero) fun c hc => ?_
    exact (digit_of_mem_hexDigits (mem_hexDigits_of_getLast? ['0', 'x'] hc)).1
  have hascii : ('0' :: 'x' :: Text.hexDigits width n).map Text.asciiDigit =
      '0' :: 'x' :: Text.hexDigits width n := by
    have hdigits : (Text.hexDigits width n).map Text.asciiDigit = Text.hexDigits width n :=
      (List.map_congr_left fun c hc => (digit_of_mem_hexDigits hc).2.1).trans (List.map_id _)
    rw [List.map_cons, List.map_cons, hdigits]
    rfl
  have hmarked : Text.markedDigits? 16 (Text.hexDigits width n) = some n := by
    rw [Text.markedDigits?.eq_def]
    split
    · rename_i heq
      have hmem : '_' ∈ Text.hexDigits width n := heq ▸ List.mem_cons_self
      exact absurd (isAlphanum_of_mem_hexDigits hmem).1 (by decide)
    · exact digits?_hexDigits width n
  have hinteger : Text.integer? .marked ('0' :: 'x' :: Text.hexDigits width n) = some (n : ℤ) := by
    have hmagnitude : Text.magnitude .marked ('0' :: 'x' :: Text.hexDigits width n) = .ok n := by
      simp only [Text.magnitude, hmarked]
    rw [Text.integer?, Text.integer, htrim, hascii]
    split
    · rename_i heq
      cases heq
    · rename_i heq
      cases heq
    · rw [hmagnitude]
      rfl
  have hnumber : number? ('-' :: '0' :: 'x' :: Text.hexDigits width n) = some (-(n : ℤ)) := by
    have hsign : number? ('-' :: '0' :: 'x' :: Text.hexDigits width n) =
        (Text.integer? .marked ('0' :: 'x' :: Text.hexDigits width n)).map fun v => -v := rfl
    rw [hsign, hinteger]
    rfl
  rw [number, hnumber]

end Digits

/-- A number below zero in hexadecimal is read as an immediate, however long it is. -/
theorem readOperand_negative (line : Option ℕ) (width n : ℕ) :
    readOperand line ('-' :: '0' :: 'x' :: Text.hexDigits width n) = .ok (.imm (-n)) := by
  have hwidth : width? ('-' :: '0' :: 'x' :: Text.hexDigits width n) = none := rfl
  have hoffset : isOffset ('-' :: '0' :: 'x' :: Text.hexDigits width n) = false := rfl
  have hsegment : isSegmented ('-' :: '0' :: 'x' :: Text.hexDigits width n) = false := rfl
  have hlast : (('-' :: '0' :: 'x' :: Text.hexDigits width n).getLast? == some ']') = false := by
    rw [beq_eq_false_iff_ne]
    intro hend
    have hmem := mem_hexDigits_of_getLast? ['-', '0', 'x'] hend
    exact absurd (isAlphanum_of_mem_hexDigits hmem).1 (by decide)
  rw [readOperand, hwidth]
  dsimp only
  rw [hoffset, hsegment, hlast, register?_of_sign, isNumber_hexDigits, number_hexDigits]
  rfl

/-! ## Two operands -/

section Pair

variable {line : Option ℕ} {s t : List Char}

/-- Two operands with a comma between them are read one by one. -/
lemma readOperands_pair (hs : IsOperandText s) (ht : IsOperandText t) {o p : Operand}
    (ho : readOperand line s = .ok o) (hp : readOperand line t = .ok p) :
    readOperands line (some (s ++ ',' :: ' ' :: t)) = .ok { operands := [o, p] } := by
  have hpieces : ∀ u ∈ [s, t], IsPiece u :=
    List.forall_mem_cons.mpr ⟨hs.isPiece, List.forall_mem_singleton.mpr ht.isPiece⟩
  have hrow : row? [s, t] = some (s ++ ',' :: ' ' :: t) := by
    rw [row?, if_neg (List.cons_ne_nil _ _), List.intercalate_cons_cons, List.intercalate_singleton,
      List.append_assoc]
    rfl
  rw [← hrow, readOperands_row hpieces]
  exact foldlM_add_eq_ok.mpr ⟨[o, p], .cons ho (.cons hp .nil), rfl⟩

end Pair

/-! ## Statements -/

/-- An addition of a number below zero is read as one, however long the number is. -/
theorem readInstruction_negative (line : Option ℕ) (width n : ℕ) :
    ∃ i, readInstruction line ("add rax, -0x".toList ++ Text.hexDigits width n) = .ok i ∧
      i.mnemonic = "add" ∧ i.mark = none ∧ i.operands = [.reg .rax, .imm (-n)] := by
  have hregister : IsOperandText "rax".toList :=
    ⟨by decide, by decide, by decide, by decide⟩
  have hnumber : IsOperandText ('-' :: '0' :: 'x' :: Text.hexDigits width n) := by
    refine ⟨List.cons_ne_nil _ _, fun c hc => ?_, fun c hc => ?_, ?_⟩
    · obtain rfl : '-' = c := Option.some.inj hc
      decide
    · exact (isAlphanum_of_mem_hexDigits (mem_hexDigits_of_getLast? ['-', '0', 'x'] hc)).2
    · have hlead : ∀ c ∈ ['-', '0', 'x'], c ≠ ',' ∧ c ≠ '[' ∧ c ≠ ']' := by decide
      have hdigits : ∀ c ∈ Text.hexDigits width n, c ≠ ',' ∧ c ≠ '[' ∧ c ≠ ']' := by
        intro c hc
        have hdigit := (isAlphanum_of_mem_hexDigits hc).1
        refine ⟨?_, ?_, ?_⟩ <;> rintro rfl <;> exact absurd hdigit (by decide)
      exact fun c hc => (List.mem_append.mp hc).elim (hlead c) (hdigits c)
  have hread : readOperands line (some ("rax, -0x".toList ++ Text.hexDigits width n)) =
      .ok { operands := [.reg .rax, .imm (-n)] } :=
    readOperands_pair hregister hnumber rfl (readOperand_negative line width n)
  have hline : '\n' ∉ "rax, -0x".toList ++ Text.hexDigits width n := by
    rw [List.mem_append, not_or]
    refine ⟨by decide, fun hmem => ?_⟩
    exact absurd (isAlphanum_of_mem_hexDigits hmem).1 (by decide)
  have hsplit : splitMnemonic? ("add rax, -0x".toList ++ Text.hexDigits width n) =
      some ("add", some ("rax, -0x".toList ++ Text.hexDigits width n)) := by
    change (restOfLine? ("rax, -0x".toList ++ Text.hexDigits width n)).map
      (fun ops => ("add", some ops)) = _
    rw [restOfLine?, Text.cutAt_of_notMem hline]
    rfl
  have hstatement : splitStatement line ("add rax, -0x".toList ++ Text.hexDigits width n) =
      .ok (none, "add", some ("rax, -0x".toList ++ Text.hexDigits width n)) := by
    have hmark : sourceMark? "add" = none := rfl
    rw [splitStatement, hsplit]
    dsimp only
    rw [hmark]
  exact ⟨_, bind_eq_ok.mpr ⟨_, hstatement, bind_eq_ok.mpr ⟨_, hread, rfl⟩⟩, rfl, rfl, rfl⟩

end AsmBridge.Source
