import AsmBridge.Proofs.Source.Written

/-!
# Written instructions

An instruction that can be read is written from its parts: mark, mnemonic and operands. All of these
are read from the text again unless an operand cannot be written or is misprinted
(`readInstruction_isWrittenAs_iff`).
-/

namespace AsmBridge

/-- The text is that of the parts of the instruction, all of which can be written. -/
structure Instruction.IsWrittenAs (i : Instruction) (text : String) : Prop where
  writable : ∀ o ∈ i.operands, ¬ o.IsUnwritable
  text : instructionText? i.mnemonic i.mark i.operands = some text

/-- The instruction has the parts of the other one, and none was left out in reading it. -/
structure Instruction.IsCopyOf (j i : Instruction) : Prop where
  mnemonic : j.mnemonic = i.mnemonic
  mark : j.mark = i.mark
  operands : j.operands = i.operands
  problem : j.problem = none

namespace Source

variable {line : Option ℕ} {s t : List Char}

/-! ## Operands -/

/-- A word is a piece of a row. -/
lemma isPiece_of_sumChars (hne : s ≠ []) (hs : ∀ c ∈ s, isSumChar c = true) :
    IsPiece s ∧ '\n' ∉ s := by
  have hblank := fun c hc => (plain_of_isSumChar (hs c hc)).1
  have hplain : ∀ c ∈ s, c ≠ ',' ∧ c ≠ '[' ∧ c ≠ ']' := by
    intro c hc
    obtain ⟨-, hclose, hopen, hcomma⟩ := ne_of_isSumChar (hs c hc)
    exact ⟨hcomma, hopen, hclose⟩
  have htext : IsOperandText s := ⟨hne, fun c hc => hblank c (List.mem_of_mem_head? hc),
    fun c hc => hblank c (List.mem_of_getLast? hc), hplain⟩
  exact ⟨htext.isPiece, fun hmem => absurd (hblank _ hmem) (by decide)⟩

/-- The text of an operand that can be read is a piece of a row, and stands on one line. -/
lemma isPiece_of_isFormed {o : Operand} (ho : o.IsFormed) {text : String}
    (hwritable : ¬ o.IsUnwritable) (htext : o.text? = some text) :
    IsPiece text.toList ∧ '\n' ∉ text.toList := by
  cases ho with
  | @reg r hr =>
    obtain rfl := Option.some.inj htext
    have hspells := Spells.register (register?_name r)
    exact isPiece_of_sumChars hspells.plain.1 (isSumChar_of_spells hspells)
  | imm v =>
    obtain rfl := Option.some.inj htext
    obtain ⟨ds, hds, -, hdigits⟩ := exists_isNumeral_immText hwritable
    have hchars := isSumChar_of_spells (.number hds)
    rw [hdigits]
    split_ifs
    · exact isPiece_of_sumChars (List.cons_ne_nil _ _) (List.forall_mem_cons.mpr ⟨rfl, hchars⟩)
    · exact isPiece_of_sumChars hds.ne_nil hchars
  | sym hname hregister _ =>
    obtain rfl := Option.some.inj htext
    have hspells := Spells.symbol hname hregister
    exact isPiece_of_sumChars hspells.plain.1 (isSumChar_of_spells hspells)
  | @mem a ha =>
    obtain ⟨front, -, hhead, hfront, hfrontText⟩ := exists_front_text ha.toIsReadable
    have htoList : text.toList = front ++ '[' :: (a.inner ++ [']']) := by
      rw [Operand.text?] at htext
      rw [htext] at hfrontText
      rw [← a.toList_sumText]
      exact Option.some.inj hfrontText
    have hplain : ∀ c : Char, c = ' ' ∨ isSumChar c = true →
        c ≠ '\n' ∧ c ≠ ',' ∧ c ≠ '[' ∧ c ≠ ']' := by
      rintro c (rfl | hc)
      · decide
      · obtain ⟨-, hclose, hopen, hcomma⟩ := ne_of_isSumChar hc
        refine ⟨?_, hcomma, hopen, hclose⟩
        rintro rfl
        exact absurd (plain_of_isSumChar hc).1 (by decide)
    have hinner := fun c hc => hplain c (mem_inner ha hc)
    rw [htoList]
    refine ⟨isPiece_of_bracket hhead (fun c hc => (hplain c (hfront c hc)).2)
      fun c hc => (hinner c hc).2.2, fun hmem => ?_⟩
    simp only [List.mem_append, List.mem_cons, List.not_mem_nil, or_false] at hmem
    obtain hmem | hmem | hmem | hmem := hmem
    · exact (hplain _ (hfront _ hmem)).1 rfl
    · cases hmem
    · exact (hinner _ hmem).1 rfl
    · cases hmem

/-! ## Statements -/

lemma isMnemonic_of_sourceMark? {m : String} (h : (sourceMark? m).isSome = true) :
    IsMnemonic m := by
  have hall : ∀ p ∈ sourceMarks, p.1.toList.head?.any Char.isAlpha = true ∧
      ∀ c ∈ p.1.toList, c.isAlphanum = true ∧ c.toLower = c := by decide
  obtain ⟨byte, hbyte⟩ := Option.isSome_iff_exists.mp h
  obtain ⟨p, hp, -⟩ := Option.map_eq_some_iff.mp hbyte
  have hname := List.find?_some hp
  rw [beq_iff_eq] at hname
  obtain ⟨hhead, hchars⟩ := hall p (List.mem_of_find?_eq_some hp)
  rw [hname] at hhead hchars
  refine ⟨?_, hchars⟩
  cases hlist : m.toList with
  | nil => rw [hlist] at hhead; cases hhead
  | cons c rest => exact ⟨c, rest, rfl, by rw [hlist] at hhead; exact hhead⟩

/-- The operands behind a space, if there are any. -/
def behind (ops : Option (List Char)) : List Char := (ops.map (' ' :: ·)).getD []

/-- The mark and the space behind it. -/
def markText (mark : Option String) : List Char := (mark.map (·.toList ++ [' '])).getD []

variable {mark : Option String} {m : String} {ops : Option (List Char)}

lemma isTrimmed_of_isMnemonic (hm : IsMnemonic m) : IsTrimmed m.toList ∧ '\n' ∉ m.toList := by
  obtain ⟨c, rest, hlist, -⟩ := hm.head
  have hblank : ∀ d ∈ m.toList, Text.isBlank d = false := fun d hd =>
    isBlank_of_isAlphanum (hm.chars d hd).1
  refine ⟨⟨hlist ▸ List.cons_ne_nil c rest, fun d hd => hblank d (List.mem_of_mem_head? hd),
    fun d hd => hblank d (List.mem_of_getLast? hd)⟩, fun hmem => ?_⟩
  exact absurd (hblank _ hmem) (by decide)

/-- A mnemonic with operands behind it is as good as these. -/
lemma isTrimmed_behind (hm : IsMnemonic m) (hops : ∀ t ∈ ops, IsTrimmed t ∧ '\n' ∉ t) :
    IsTrimmed (m.toList ++ behind ops) ∧ '\n' ∉ m.toList ++ behind ops := by
  obtain ⟨htrimmed, hline⟩ := isTrimmed_of_isMnemonic hm
  cases ops with
  | none =>
    rw [behind, Option.map_none, Option.getD_none, List.append_nil]
    exact ⟨htrimmed, hline⟩
  | some t =>
    obtain ⟨ht, htline⟩ := hops t rfl
    have hspace : m.toList ++ behind (some t) = m.toList ++ [' '] ++ t := by simp [behind]
    rw [hspace]
    exact ⟨htrimmed.append ht _, by simp [hline, htline]⟩

/-- A mark stands in front of a statement as a mnemonic stands in front of operands. -/
lemma markText_append (k : String) (s : List Char) :
    markText (some k) ++ s = k.toList ++ behind (some s) := by
  simp [markText, behind]

/-- What is behind a mnemonic are its operands. -/
lemma splitMnemonic?_behind (hm : IsMnemonic m) (hops : ∀ t ∈ ops, IsTrimmed t ∧ '\n' ∉ t) :
    splitMnemonic? (m.toList ++ behind ops) = some (m, ops) := by
  obtain ⟨c, rest, hlist, halpha⟩ := hm.head
  have hletters : ∀ d ∈ m.toList, d.isAlphanum = true := fun d hd => (hm.chars d hd).1
  have hbehind : ∀ d ∈ (behind ops).head?, d.isAlphanum = false := by
    cases ops with
    | none => exact fun d hd => nomatch hd
    | some t => exact fun d hd => Option.some.inj hd ▸ rfl
  have htake := Text.takeWhile_append_of_head hletters hbehind
  have hdrop := Text.dropWhile_append_of_head hletters hbehind
  have hlower : m.toList.map Char.toLower = m.toList :=
    (List.map_congr_left fun d hd => (hm.chars d hd).2).trans (List.map_id _)
  rw [hlist] at htake hdrop hlower ⊢
  rw [List.cons_append] at htake hdrop ⊢
  unfold splitMnemonic?
  simp only [halpha, Bool.not_true, Bool.false_eq_true, if_false, htake, hdrop, hlower]
  rw [← hlist, String.ofList_toList]
  cases ops with
  | none => rfl
  | some t =>
    obtain ⟨ht, hline⟩ := hops t rfl
    have hrest : restOfLine? t = some t := by rw [restOfLine?, Text.cutAt_of_notMem hline]
    change (restOfLine? (Text.trimLeft t)).map (fun ops => (m, some ops)) = _
    rw [Text.trimLeft_eq_self ht.head, hrest]
    rfl

/-- A statement is divided into mark, mnemonic and operands. -/
lemma splitStatement_written (hm : IsMnemonic m) (hmark : ∀ k ∈ mark, (sourceMark? k).isSome = true)
    (hbare : mark = none → (sourceMark? m).isSome = true → ops = none)
    (hops : ∀ t ∈ ops, IsTrimmed t ∧ '\n' ∉ t) :
    splitStatement line (markText mark ++ (m.toList ++ behind ops)) = .ok (mark, m, ops) := by
  have hsplit := splitMnemonic?_behind hm hops
  unfold splitStatement
  dsimp only
  cases mark with
  | none =>
    rw [markText, Option.map_none, Option.getD_none, List.nil_append, hsplit]
    dsimp only
    cases hbyte : sourceMark? m with
    | none => rfl
    | some byte => rw [hbare rfl (by rw [hbyte]; rfl)]
  | some k =>
    obtain ⟨byte, hbyte⟩ := Option.isSome_iff_exists.mp (hmark k rfl)
    obtain ⟨c, rest, hlist, -⟩ := hm.head
    obtain ⟨htrimmed, hline⟩ := isTrimmed_behind hm hops
    have hmarked : splitMnemonic? (k.toList ++ behind (some (m.toList ++ behind ops))) =
        some (k, some (m.toList ++ behind ops)) :=
      splitMnemonic?_behind (isMnemonic_of_sourceMark? (hmark k rfl))
        (by rintro _ ⟨⟩; exact ⟨htrimmed, hline⟩)
    have htrim := htrimmed.trim_eq
    rw [markText_append, hmarked]
    rw [hlist, List.cons_append] at hsplit htrim ⊢
    simp only [hbyte, htrim, hsplit]

/-- A statement has no blanks at its ends. -/
lemma isTrimmed_statement (hm : IsMnemonic m) (hmark : ∀ k ∈ mark, (sourceMark? k).isSome = true)
    (hops : ∀ t ∈ ops, IsTrimmed t ∧ '\n' ∉ t) :
    IsTrimmed (markText mark ++ (m.toList ++ behind ops)) := by
  have hplain := isTrimmed_behind hm hops
  cases mark with
  | none => exact hplain.1
  | some k =>
    rw [markText_append]
    refine (isTrimmed_behind (isMnemonic_of_sourceMark? (hmark k rfl)) ?_).1
    rintro _ ⟨⟩
    exact hplain

/-! ## Instructions -/

section Texts

variable {i : Instruction} {texts : List String}
  (hpieces : ∀ u ∈ texts.map String.toList, IsPiece u ∧ '\n' ∉ u)

include hpieces

lemma isTrimmed_of_mem_row? : ∀ t ∈ row? (texts.map String.toList), IsTrimmed t ∧ '\n' ∉ t := by
  intro t ht
  cases hlist : texts.map String.toList with
  | nil => rw [hlist] at ht; cases ht
  | cons u us =>
    rw [hlist] at ht hpieces
    obtain rfl := Option.some.inj ht
    exact ⟨isTrimmed_row fun v hv => (hpieces v hv).1, notMem_row fun v hv => (hpieces v hv).2⟩

variable (hi : i.IsFormed) (htexts : i.operands.mapM (·.text?) = some texts)

include hi htexts

/-- The text of an instruction: its mark, its mnemonic and the row of its operands. -/
lemma exists_instructionText? :
    ∃ text, instructionText? i.mnemonic i.mark i.operands = some text ∧ text.toList =
      markText i.mark ++ (i.mnemonic.toList ++ behind (row? (texts.map String.toList))) := by
  have htrimmed := isTrimmed_statement hi.mnemonic hi.mark (isTrimmed_of_mem_row? hpieces)
  have hcomma : (Text.commaList texts).toList =
      [',', ' '].intercalate (texts.map String.toList) := String.toList_intercalate
  have htrim : Text.trim (markText i.mark ++ (i.mnemonic.toList ++ ([' '] ++
      [',', ' '].intercalate (texts.map String.toList)))) =
      markText i.mark ++ (i.mnemonic.toList ++ behind (row? (texts.map String.toList))) := by
    cases hlist : texts.map String.toList with
    | nil =>
      have hspace : ∀ c ∈ [' '], Text.isBlank c = true := by decide
      rw [hlist] at htrimmed
      have hnone : behind (row? []) = [] := rfl
      rw [List.intercalate_nil, List.append_nil, ← List.append_assoc, ← List.append_assoc,
        Text.trim_append_right hspace]
      rw [hnone, List.append_nil] at htrimmed ⊢
      exact htrimmed.trim_eq
    | cons u us =>
      rw [hlist] at htrimmed
      exact htrimmed.trim_eq
  obtain ⟨name, hname, htext⟩ : ∃ name : String,
      name.toList = markText i.mark ++ i.mnemonic.toList ∧
      instructionText? i.mnemonic i.mark i.operands =
        some (Text.trimmed (name ++ " " ++ Text.commaList texts)) := by
    unfold instructionText?
    rw [htexts]
    cases i.mark with
    | none => exact ⟨i.mnemonic, rfl, rfl⟩
    | some m => exact ⟨m ++ " " ++ i.mnemonic, by simp [markText], rfl⟩
  refine ⟨_, htext, ?_⟩
  rw [← htrim, Text.trimmed, String.toList_ofList, String.toList_append, String.toList_append,
    hname, hcomma, List.append_assoc, List.append_assoc]
  rfl

/-- An instruction is read from its text as far as its operands are. -/
lemma readInstruction_text {text : String}
    (htext : instructionText? i.mnemonic i.mark i.operands = some text) :
    readInstruction line text.toList =
      ((texts.map String.toList).foldlM (Operands.add line) {}).map fun read =>
        { mnemonic := i.mnemonic, operands := read.operands, mark := i.mark, line := line,
          text := Text.squeezed text.toList, problem := read.problem } := by
  obtain ⟨_, htext', htoList⟩ := exists_instructionText? hpieces hi htexts
  obtain rfl := Option.some.inj (htext'.symm.trans htext)
  have hbare : i.mark = none → (sourceMark? i.mnemonic).isSome = true →
      row? (texts.map String.toList) = none := by
    intro hnone hmark
    rw [hi.bare hnone hmark] at htexts
    rw [← Option.some.inj htexts]
    rfl
  have hsplit := @splitStatement_written line _ _ _ hi.mnemonic hi.mark hbare
    (isTrimmed_of_mem_row? hpieces)
  rw [← htoList] at hsplit
  rw [readInstruction, hsplit]
  change (readOperands line (row? (texts.map String.toList)) >>= _) = _
  rw [readOperands_row fun u hu => (hpieces u hu).1]
  cases (texts.map String.toList).foldlM (Operands.add line) {} <;> rfl

end Texts

/-- The operands of an instruction that can be written have texts, each of which is a piece. -/
lemma exists_texts {i : Instruction} (hi : i.IsFormed)
    (hwritable : ∀ o ∈ i.operands, ¬ o.IsUnwritable) :
    ∃ texts : List String, i.operands.mapM (·.text?) = some texts ∧
      ∀ u ∈ texts.map String.toList, IsPiece u ∧ '\n' ∉ u := by
  have hsome : ∀ o ∈ i.operands, ∃ text, o.text? = some text := by
    intro o ho
    refine Option.isSome_iff_exists.mp (isSome_text?_of_isReadable fun a ha => ?_)
    cases ha ▸ hi.operands o ho with
    | mem ha => exact ha.toIsReadable
  obtain ⟨texts, htexts⟩ : ∃ texts, List.Forall₂ (fun o text => o.text? = some text)
      i.operands texts := by
    generalize i.operands = os at hsome
    induction os with
    | nil => exact ⟨[], .nil⟩
    | cons o os ih =>
      obtain ⟨⟨text, ho⟩, hos⟩ := List.forall_mem_cons.mp hsome
      obtain ⟨texts, htexts⟩ := ih hos
      exact ⟨text :: texts, .cons ho htexts⟩
  refine ⟨texts, mapM_eq_some.mpr htexts, fun u hu => ?_⟩
  obtain ⟨text, htext, rfl⟩ := List.mem_map.mp hu
  obtain ⟨o, ho, hotext⟩ := exists_of_mem_right htexts htext
  exact isPiece_of_isFormed (hi.operands o ho) (hwritable o ho) hotext

/-- The operands are read from their texts just if none is misprinted. -/
lemma foldlM_texts_iff {os : List Operand} {texts : List String}
    (htexts : List.Forall₂ (fun o text => o.text? = some text) os texts)
    (hos : ∀ o ∈ os, o.IsFormed) (hwritable : ∀ o ∈ os, ¬ o.IsUnwritable) :
    (texts.map String.toList).foldlM (Operands.add line) {} = .ok ⟨os, none⟩ ↔
      ∀ o ∈ os, ¬ o.IsMisprinted := by
  have hread : (texts.map String.toList).foldlM (Operands.add line) {} = .ok ⟨os, none⟩ ↔
      List.Forall₂ (fun text o => readOperand line text.toList = .ok o) texts os := by
    have hmap := List.forall₂_map_left_iff (R := fun t o => readOperand line t = .ok o)
      (f := String.toList) (l := texts) (u := os)
    refine (foldlM_add_eq_ok.trans ?_).trans hmap
    exact ⟨fun ⟨_, h, hsame⟩ => hsame ▸ h, fun h => ⟨os, h, rfl⟩⟩
  rw [hread]
  clear hread
  induction htexts with
  | nil => exact iff_of_true .nil (List.forall_mem_nil _)
  | @cons o text os texts htext _ ih =>
    obtain ⟨ho, hos⟩ := List.forall_mem_cons.mp hos
    obtain ⟨hshort, hwritable⟩ := List.forall_mem_cons.mp hwritable
    rw [List.forall₂_cons, List.forall_mem_cons]
    exact and_congr (readOperand_text_iff ho hshort htext) (ih hos hwritable)

/-- An instruction that is read can be written such that the same parts are read from the text, just
if each of its operands can be written and none is misprinted. -/
theorem readInstruction_isWrittenAs_iff {i : Instruction} (h : readInstruction line s = .ok i) :
    (∃ text, i.IsWrittenAs text ∧
      ∀ line', ∃ j, readInstruction line' text.toList = .ok j ∧ j.IsCopyOf i) ↔
      ∀ o ∈ i.operands, ¬ o.IsUnwritable ∧ ¬ o.IsMisprinted := by
  have hi := readInstruction_isFormed h
  by_cases hwritable : ∀ o ∈ i.operands, ¬ o.IsUnwritable
  · obtain ⟨texts, htexts, hpieces⟩ := exists_texts hi hwritable
    obtain ⟨text, htext, -⟩ := exists_instructionText? hpieces hi htexts
    -- All of the operands are read again just if each of them is.
    have hcopy : ∀ line', (∃ j, readInstruction line' text.toList = .ok j ∧ j.IsCopyOf i) ↔
        ∀ o ∈ i.operands, ¬ o.IsMisprinted := by
      intro line'
      have hrow := @foldlM_texts_iff line' _ _ (mapM_eq_some.mp htexts) hi.operands hwritable
      rw [readInstruction_text hpieces hi htexts htext, ← hrow]
      constructor
      · rintro ⟨j, hj, hsame⟩
        obtain ⟨read, hread, rfl⟩ := map_eq_ok.mp hj
        obtain ⟨os, problem⟩ := read
        rw [hread]
        exact congrArg Except.ok (by rw [← hsame.operands, ← hsame.problem])
      · intro hread
        rw [hread]
        exact ⟨_, rfl, rfl, rfl, rfl, rfl⟩
    constructor
    · rintro ⟨_, hwritten, hread⟩ o ho
      obtain rfl := Option.some.inj (htext.symm.trans hwritten.text)
      exact ⟨hwritable o ho, (hcopy none).mp (hread none) o ho⟩
    · intro hall
      exact ⟨text, ⟨hwritable, htext⟩, fun line' => (hcopy line').mpr fun o ho => (hall o ho).2⟩
  · constructor
    · rintro ⟨text, hwritten, -⟩
      exact absurd hwritten.writable hwritable
    · exact fun hall => absurd (fun o ho => (hall o ho).1) hwritable

/-- A store with a displacement below zero behind other terms is read from its text. -/
theorem readInstruction_isWrittenAs_of_store :
    ∃ i, readInstruction (some 3) "MOV DWORD PTR [rbx-16+rcx*4], -010".toList = .ok i ∧
      i.operands = [.mem ⟨some .rbx, some .rcx, some .four, -16, some 32, none⟩, .imm (-8)] ∧
      ∃ text, i.IsWrittenAs text ∧
        ∀ line', ∃ j, readInstruction line' text.toList = .ok j ∧ j.IsCopyOf i := by
  obtain ⟨i, hread, hoperands⟩ := exists_ok_of_any (p := fun i : Instruction =>
      i.operands = [.mem ⟨some .rbx, some .rcx, some .four, -16, some 32, none⟩, .imm (-8)])
    (x := readInstruction (some 3) "MOV DWORD PTR [rbx-16+rcx*4], -010".toList) (by decide)
  refine ⟨i, hread, hoperands, (readInstruction_isWrittenAs_iff hread).mpr ?_⟩
  have hwritable : Text.isWritable (-8) = true := by decide +kernel
  rw [hoperands]
  refine List.forall_mem_cons.mpr ⟨⟨?_, ?_⟩, List.forall_mem_singleton.mpr ⟨?_, ?_⟩⟩
  · rintro ⟨v, -, himm, -⟩
    cases himm
  · rintro ⟨a, ha, hbase | hbase⟩
    all_goals
      obtain rfl := Operand.mem.inj ha
      cases hbase
  · rintro ⟨v, -, himm, hlong⟩
    obtain rfl := Operand.imm.inj himm
    cases hwritable.symm.trans hlong
  · rintro ⟨a, ha, -⟩
    cases ha

/-- A lone displacement below zero is written such that its text is refused. -/
theorem not_reread_of_negative :
    ∃ i, readInstruction none "mov rax, [-16]".toList = .ok i ∧ i.problem = none ∧
      (∀ a ∈ i.addresses, a.scale ≠ some .one) ∧ i.IsWrittenAs "mov rax, [0x-10]" ∧
      readInstruction none "mov rax, [0x-10]".toList =
        .error (defectAt none "0x" (.addressUnreadable "[0x-10]")) := by
  obtain ⟨i, hread, hmnemonic, hmark, hproblem, hoperands⟩ := exists_ok_of_any
    (p := fun i : Instruction => i.mnemonic = "mov" ∧ i.mark = none ∧ i.problem = none ∧
      i.operands = [.reg .rax, .mem { disp := -16 }])
    (x := readInstruction none "mov rax, [-16]".toList) (by decide)
  refine ⟨i, hread, hproblem, ?_, ⟨?_, ?_⟩, by decide⟩
  · rw [Instruction.addresses, hoperands]
    exact List.forall_mem_singleton.mpr (by decide)
  · rw [hoperands]
    refine List.forall_mem_cons.mpr ⟨?_, List.forall_mem_singleton.mpr ?_⟩
    all_goals
      rintro ⟨v, -, himm, -⟩
      cases himm
  · rw [hmnemonic, hmark, hoperands]
    decide

end Source

end AsmBridge
