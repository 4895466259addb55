import AsmBridge.Proofs.Encoding.RoundTrip

/-!
# The operand-size override

The override makes a form without VEX an operation on 16 bits. Whether it is emitted follows from
the operands, while the form was chosen by its types: the two agree unless the opcode of a 16-bit
form already has a mandatory prefix, or no operand tells that its data are 16 bits wide. Where they
agree a processor reads as many immediate bytes as were emitted, and the 16-bit and the 32-bit forms
of one instruction have different codes.
-/

namespace AsmBridge

/-! ## The size of an operation -/

/-- The width that an operand names. -/
def Operand.namedBits? : Operand → Option ℕ
  | .reg r => some r.bits
  | .mem a => a.bits
  | _ => none

lemma operationBits?_eq (ops : List Operand) :
    operationBits? ops = ops.findSome? (·.namedBits?) := by
  unfold operationBits?
  congr 1

section

variable {t : OperandType} {o : Operand}

/-- A datum that suits a width has it, if it names one. -/
lemma eq_of_memSuits {want n : ℕ} {bits : Option ℕ} (h : memSuits want bits = true)
    (hn : bits = some n) : n = 0 ∨ n = want := by
  subst hn
  simpa [memSuits] using h

/-- A vector register is as wide as its kind. -/
lemma bits_of_isOfKind {r : Register} {k : VectorKind} (h : r.isOfKind k = true) :
    r.bits = match k with
      | .xmm => 128
      | .ymm => 256 := by
  cases r <;> cases k <;> first | rfl | cases h

/-- An operand that a type takes names one of its widths, if it names one at all. -/
lemma mem_widths_of_takes (h : t.takes o = true) {n : ℕ} (hn : o.namedBits? = some n) :
    n = 0 ∨ n ∈ t.widths ∨ t = .mem none := by
  cases o with
  | imm v => cases hn
  | sym name => cases hn
  | reg r =>
    obtain rfl := Option.some.inj hn
    refine .inr (.inl ?_)
    cases t with
    | fixed q => simp_all [OperandType.takes, OperandType.widths]
    | vector k m =>
      have hbits := bits_of_isOfKind h
      cases k <;> simp [OperandType.widths, hbits]
    | vectorOrMem k m bits =>
      have hbits := bits_of_isOfKind h
      cases k <;> simp [OperandType.widths, hbits]
    | mem bits => cases bits <;> cases h
    | one => cases h
    | imm w => cases h
    | _ => simp_all [OperandType.takes, OperandType.takesGeneral, OperandType.widths]
  | mem a =>
    cases t with
    | gpOrMem w =>
      rcases eq_of_memSuits h hn with rfl | rfl <;> simp [OperandType.widths]
    | gpOrNarrow w m =>
      rcases eq_of_memSuits h hn with rfl | rfl <;> simp [OperandType.widths]
    | vectorOrMem k m bits =>
      rcases eq_of_memSuits h hn with rfl | rfl <;> cases k <;> simp [OperandType.widths]
    | mem want =>
      cases want with
      | none => exact .inr (.inr rfl)
      | some w => rcases eq_of_memSuits h hn with rfl | rfl <;> simp [OperandType.widths]
    | _ => cases h

/-- Registers are of some width. -/
lemma bits_ne_zero (r : Register) : r.bits ≠ 0 := by
  cases r with
  | gp w n => cases w <;> exact Nat.succ_ne_zero _
  | _ => exact Nat.succ_ne_zero _

/-- An operand of a type with one width names it, unless it is a datum that names none. -/
lemma namedBits?_of_widths {n : ℕ} (h : t.takes o = true) (hwidths : t.widths = [n])
    (hnamed : ∀ a, o = .mem a → ∃ m ≠ 0, a.bits = some m) : o.namedBits? = some n := by
  have hmember : ∀ m ≠ 0, o.namedBits? = some m → m = n := by
    intro m hm hbits
    rcases mem_widths_of_takes h hbits with hzero | hmem | rfl
    · exact absurd hzero hm
    · rw [hwidths] at hmem
      exact List.mem_singleton.mp hmem
    · cases hwidths
  cases o with
  | reg r => rw [← hmember r.bits (bits_ne_zero r) rfl, Operand.namedBits?]
  | mem a =>
    obtain ⟨m, hm, hbits⟩ := hnamed a rfl
    rw [← hmember m hm hbits]
    exact hbits
  | imm v => cases t <;> simp_all [OperandType.takes, OperandType.widths]
  | sym name => cases t <;> simp_all [OperandType.takes]

/-- An operand of a type of registers names a width. -/
lemma namedBits?_isSome_of_takes (h : t.takes o = true) (ht : t.namesWidth = true) :
    o.namedBits?.isSome = true := by
  cases t <;> cases o <;> simp_all [OperandType.takes, OperandType.namesWidth, Operand.namedBits?]

end

/-! ## No override of other sizes -/

/-- Operands of types that never name 16 bits first do not. -/
lemma operationBits?_ne_of_neverWords {types : List OperandType} {ops : List Operand}
    (h : neverWords types = true) (htakes : List.Forall₂ (fun t o => t.takes o = true) types ops) :
    operationBits? ops ≠ some 16 := by
  rw [operationBits?_eq]
  induction htakes with
  | nil => simp
  | @cons t o types ops ht _ ih =>
    simp only [neverWords, Bool.and_eq_true, bne_iff_ne, Bool.not_eq_true', Bool.or_eq_true] at h
    obtain ⟨⟨hany, hwidths⟩, hrest⟩ := h
    cases hn : o.namedBits? with
    | some n =>
      simp only [List.findSome?_cons, hn]
      rintro ⟨⟩
      rcases mem_widths_of_takes ht hn with h0 | hmem | hany'
      · cases h0
      · simp [hmem] at hwidths
      · exact hany hany'
    | none =>
      simp only [List.findSome?_cons, hn]
      rcases hrest with hnames | hrest
      · have hsome := namedBits?_isSome_of_takes ht hnames
        rw [hn] at hsome
        cases hsome
      · exact ih hrest

@[simp] lemma Register.low_ofLow (n : Fin 8) : (Register.ofLow n).low = n := by
  apply Fin.ext
  simp only [Register.ofLow, Register.low, Register.number, fourBits, Bool.toNat_false]
  omega

/-- An opcode takes up only the low bits of a register. -/
lemma withRegister_low (bytes : List UInt8) (r : Register) :
    withRegister bytes (some r) = withRegister bytes (some (.ofLow r.low)) := by
  rw [withRegister, withRegister, Register.low_ofLow]

/-- Without a register an opcode is as with the register zero. -/
lemma withRegister_none (bytes : List UInt8) :
    withRegister bytes none = withRegister bytes (some (.ofLow 0)) := by
  rw [withRegister, withRegister]
  cases hlast : bytes.getLast? with
  | none => rfl
  | some b =>
    have hzero : UInt8.ofNat (Register.ofLow 0).low.val = 0 := rfl
    dsimp only
    rw [hzero, UInt8.or_zero, List.dropLast_append_getLast? b hlast]

/-- The opcode of a filled form is that of the form with some low bits, which are zero unless an
operand is there. -/
lemma exists_low (f : Form) (ops : List Operand) :
    ∃ n ∈ f.lowBits,
      withRegister f.opcode.spec.opcode (Placed.ofForm f ops).opcode =
        withRegister f.opcode.spec.opcode (some (.ofLow n)) := by
  refine ⟨_, Placed.low_mem_lowBits f ops, ?_⟩
  cases (Placed.ofForm f ops).opcode with
  | none => exact withRegister_none _
  | some r => exact withRegister_low _ r

/-- The lead asks for the 64-bit operation size. -/
def CodeLead.rexW : CodeLead → Bool
  | .legacy _ rex => (rex.map (·.w)).getD false
  | .vex _ => false

lemma codeLead_rexW {spec : OpcodeSpec} {placed : Placed} {ext : Extension} {ops : List Operand}
    {lead : CodeLead} (h : codeLead spec placed ext ops = .ok lead) (hv : spec.vex = none) :
    lead.rexW = spec.rexW := by
  obtain ⟨rex, rfl, ⟨rfl, hw, -⟩ | ⟨rfl, -⟩⟩ := codeLead_legacy h hv
  · rw [hw]
    rfl
  · rfl

/-! ## When the override is right -/

/-- The override is emitted exactly for an operation on 16 bits. -/
def Encoded.SizeRight (e : Encoded) : Prop :=
  e.code.sizeOverride = true ↔ e.form.operationBits? = some 16

section

variable {mnemonic : String} {mark : Option String} {ops : List Operand} {e : Encoded}

/-- The override follows from the opcode and the operands. -/
lemma sizeOverride_eq (h : encodeFully mnemonic mark ops = .ok e)
    (hv : e.form.opcode.spec.vex = none) : e.code.sizeOverride = true ↔
      e.form.opcode.spec.mandatory = none ∧ operationBits? ops = some 16 := by
  obtain ⟨-, -, -, hcode⟩ := encodeFully_spec h
  obtain ⟨field, address, byte, lead, -, -, -, -, hc⟩ := Form.assemble_eq hcode
  rw [hc]
  simp [overrides, hv]

/-- There is no override for operations of other sizes. -/
lemma operationBits?_of_sizeOverride (h : encodeFully mnemonic mark ops = .ok e)
    (hv : e.form.opcode.spec.vex = none) (hops : operationBits? ops = some 16) :
    e.form.operationBits? = some 16 := by
  obtain ⟨hlisted, htakes, -, -⟩ := encodeFully_spec h
  obtain ⟨_, hregular⟩ := hlisted.isRegular
  by_contra hne
  exact operationBits?_ne_of_neverWords ((hregular.legacy hv).neverWords hne) htakes hops

/-- Operands of a 16-bit form that all name their widths name 16 bits first. -/
lemma operationBits?_of_named (h : encodeFully mnemonic mark ops = .ok e)
    (hv : e.form.opcode.spec.vex = none) (hform : e.form.operationBits? = some 16)
    (hnamed : ∀ a, .mem a ∈ ops → ∃ n ≠ 0, a.bits = some n) : operationBits? ops = some 16 := by
  obtain ⟨hlisted, htakes, -, -⟩ := encodeFully_spec h
  obtain ⟨_, hregular⟩ := hlisted.isRegular
  have hhead := (hregular.legacy hv).word hform
  rw [operationBits?_eq]
  cases htypes : e.form.types with
  | nil => rw [htypes] at hhead; cases hhead
  | cons t types =>
    rw [htypes] at hhead htakes
    cases htakes with
    | @cons _ o _ ops' ht _ =>
      -- The first operand is a register or a datum, and names one of the widths of its type.
      have hbits := namedBits?_of_widths ht (Option.some.inj hhead) fun a ha =>
        hnamed a (ha ▸ List.mem_cons_self)
      rw [List.findSome?_cons, hbits]

/-- Where the override is right a processor reads the immediate bytes that were emitted. -/
lemma imm_length_of_sizeRight (h : encodeFully mnemonic mark ops = .ok e)
    (hv : e.form.opcode.spec.vex = none) (hsize : e.SizeRight) :
    8 * e.code.imm.length = if hasPlace .imm e.form.slots then
      immediateBits e.code.opcode e.code.lead.rexW e.code.sizeOverride else 0 := by
  obtain ⟨hlisted, htakes, -, hcode⟩ := encodeFully_spec h
  obtain ⟨_, hregular⟩ := hlisted.isRegular
  have hf := hregular.readable
  have hlegacy := hregular.legacy hv
  have hover : e.code.sizeOverride = (e.form.operationBits? == some 16) := by
    rw [Bool.eq_iff_iff, beq_iff_eq]
    exact hsize
  obtain ⟨field, address, byte, lead, -, -, -, hlead, hc⟩ := Form.assemble_eq hcode
  rw [hover, hc]
  dsimp only
  rw [codeLead_rexW hlead hv]
  split
  · rename_i himm
    obtain ⟨q, hq, hplace⟩ := Placed.exists_row_of_hasPlace hf.length_slots htakes.length_eq himm
    obtain ⟨n, hn, hopcode⟩ := exists_low e.form ops
    have hreads := List.all_eq_true.mp (List.all_eq_true.mp hlegacy.immediate n hn) _
      (Placed.mem_zip_of_mem_rows hq)
    dsimp only at hreads
    rw [hplace, Bool.or_eq_true, beq_iff_eq] at hreads
    have hbits := hreads.resolve_left (by decide)
    obtain ⟨w, hw, hwidth⟩ := Option.map_eq_some_iff.mp hbits
    obtain ⟨ht, v, ho⟩ := OperandType.exists_imm_of_takes hw (Placed.takes_of_mem_rows htakes hq)
    rw [hopcode, ← hwidth, Placed.ofForm_imm hf htakes.length_eq hq hplace, ht, ho, Placed.immBytes,
      length_littleEndian]
    cases w <;> rfl
  · rename_i himm
    have hnone : hasImmediate e.form.slots = false := by
      rw [hasImmediate, hlegacy.immRegister, Bool.eq_false_iff.mpr himm]
      rfl
    rw [Placed.ofForm_imm_eq_nil ops hnone]
    rfl

end

/-! ## Codes of 16-bit and of 32-bit forms -/

/-- An extension byte is no source mark. -/
lemma Rex.byte_ne_mark (x : Rex) : (sourceMarks.all fun p => p.2 != x.byte) = true := by
  obtain ⟨w, ⟨r, x, b⟩⟩ := x
  revert w r x b
  decide

/-- Without prefixes a code begins, behind its mark, with a byte that is neither an override nor a
mark. -/
lemma exists_head_of_prefixless {mnemonic : String} {mark : Option String} {ops : List Operand}
    {e : Encoded} (h : encodeFully mnemonic mark ops = .ok e)
    (hv : e.form.opcode.spec.vex = none) (hm : e.form.opcode.spec.mandatory = none) :
    ∃ b rest, e.code.lead.bytes ++ e.code.opcode = b :: rest ∧ b ≠ 0x66 ∧
      (sourceMarks.all fun p => p.2 != b) = true := by
  obtain ⟨hlisted, htakes, -, hcode⟩ := encodeFully_spec h
  obtain ⟨_, hregular⟩ := hlisted.isRegular
  obtain ⟨field, address, byte, lead, -, -, -, hlead, hc⟩ := Form.assemble_eq hcode
  rw [hc]
  dsimp only
  obtain ⟨rex, rfl, -⟩ := codeLead_legacy hlead hv
  rw [hm, CodeLead.bytes]
  cases rex with
  | some x =>
    refine ⟨x.byte, _, rfl, ?_, x.byte_ne_mark⟩
    intro heq
    have hdiv := x.byte_div
    rw [heq] at hdiv
    exact absurd hdiv (by decide)
  | none =>
    obtain ⟨n, hn, hopcode⟩ := exists_low e.form ops
    obtain ⟨b, rest, hbytes, -, hne⟩ := exists_head_withRegister (r := some (.ofLow n)) <|
      List.all_eq_true.mp (hregular.readable.head hv) _ (by simpa using hn)
    refine ⟨b, rest, ?_, hne, ?_⟩
    · rw [hopcode, ← hbytes]
      rfl
    · have hmark := List.all_eq_true.mp ((hregular.legacy hv).mark hm) n hn
      rwa [hbytes] at hmark

/-- The mark of a code is a source mark. -/
lemma exists_mark {mnemonic : String} {mark : Option String} {ops : List Operand} {e : Encoded}
    (h : encodeFully mnemonic mark ops = .ok e) {b : UInt8} (hb : e.code.mark = some b) :
    ∃ p ∈ sourceMarks, p.2 = b := by
  obtain ⟨-, -, -, hcode⟩ := encodeFully_spec h
  obtain ⟨field, address, byte, lead, -, -, hbyte, -, hc⟩ := Form.assemble_eq hcode
  rw [hc] at hb
  dsimp only at hb
  subst hb
  unfold markByte at hbyte
  split at hbyte
  · cases hbyte
  · split at hbyte
    · rename_i s b' hmark
      obtain rfl := Option.some.inj (Except.ok.inj hbyte)
      obtain ⟨p, hp, hpb⟩ := Option.map_eq_some_iff.mp hmark
      exact ⟨p, List.mem_of_find?_eq_some hp, hpb⟩
    · cases hbyte

/-- A code with the override differs from one without it and without prefixes, whatever marks stand
before them. -/
lemma bytes_ne_of_sizeOverride {c c' : MachineCode} (hc : c.sizeOverride = true)
    (hc' : c'.sizeOverride = false) {b : UInt8} {rest : List UInt8}
    (hhead : c'.lead.bytes ++ c'.opcode = b :: rest) (hb : b ≠ 0x66)
    (hmark : ∀ m, c.mark = some m → m ≠ b) (hmark' : ∀ m, c'.mark = some m → m ≠ 0x66) :
    c'.bytes ≠ c.bytes := by
  have hbytes : ∃ tail, c.bytes = c.mark.toList ++ 0x66 :: tail :=
    ⟨c.lead.bytes ++ (c.opcode ++ ((c.address.map (·.bytes)).getD [] ++ c.imm)), by
      simp [MachineCode.bytes, hc]⟩
  have hbytes' : ∃ tail, c'.bytes = c'.mark.toList ++ b :: tail :=
    ⟨rest ++ ((c'.address.map (·.bytes)).getD [] ++ c'.imm), by
      rw [MachineCode.bytes, hc']
      simp only [Bool.false_eq_true, if_false, List.append_nil, List.append_assoc]
      rw [← List.append_assoc c'.lead.bytes, hhead]
      rfl⟩
  obtain ⟨tail, htail⟩ := hbytes
  obtain ⟨tail', htail'⟩ := hbytes'
  rw [htail, htail']
  intro heq
  cases hm : c.mark with
  | none =>
    cases hm' : c'.mark with
    | none =>
      rw [hm, hm'] at heq
      exact hb (List.cons.inj heq).1
    | some m' =>
      rw [hm, hm'] at heq
      exact hmark' m' hm' (List.cons.inj heq).1
  | some m =>
    cases hm' : c'.mark with
    | none =>
      rw [hm, hm'] at heq
      exact hmark m hm (List.cons.inj heq).1.symm
    | some m' =>
      rw [hm, hm'] at heq
      exact hb (List.cons.inj (List.cons.inj heq).2).1

/-- Where the override is right the 16-bit and the 32-bit forms of an instruction have different
codes. -/
lemma bytes_ne_of_sizeRight {mnemonic : String} {mark mark' : Option String}
    {ops ops' : List Operand} {e e' : Encoded} (h : encodeFully mnemonic mark ops = .ok e)
    (hv : e.form.opcode.spec.vex = none) (hsize : e.SizeRight)
    (hform : e.form.operationBits? = some 16) (h' : encodeFully mnemonic mark' ops' = .ok e')
    (hform' : e'.form.operationBits? = some 32) : e'.code.bytes ≠ e.code.bytes := by
  have hover : e.code.sizeOverride = true := hsize.mpr hform
  obtain ⟨hm, -⟩ := (sizeOverride_eq h hv).mp hover
  obtain ⟨entry, hentry, hf, hf'⟩ :
      ∃ entry ∈ Table.entries, e.form ∈ entry.forms ∧ e'.form ∈ entry.forms := by
    obtain ⟨entry, hentry, hlookup, hf, -⟩ := encodeFully_entry h
    obtain ⟨entry', -, hlookup', hf', -⟩ := encodeFully_entry h'
    obtain rfl := Option.some.inj (hlookup.symm.trans hlookup')
    exact ⟨entry, hentry, hf, hf'⟩
  obtain ⟨hv', hm'⟩ := (Table.isRegular entry hentry).doubleword ⟨_, hf, hform, hv, hm⟩ _ hf' hform'
  have hover' : e'.code.sizeOverride = false := by
    rw [Bool.eq_false_iff]
    intro hover'
    have hwords := operationBits?_of_sizeOverride h' hv' ((sizeOverride_eq h' hv').mp hover').2
    rw [hform'] at hwords
    exact absurd hwords (by decide)
  obtain ⟨b, rest, hhead, hb, hnot⟩ := exists_head_of_prefixless h' hv' hm'
  apply bytes_ne_of_sizeOverride hover hover' hhead hb
  · intro m hmark heq
    obtain ⟨p, hp, rfl⟩ := exists_mark h hmark
    have hne := List.all_eq_true.mp hnot p hp
    rw [heq] at hne
    simp at hne
  · intro m hmark heq
    obtain ⟨p, hp, rfl⟩ := exists_mark h' hmark
    have hall : ∀ p ∈ sourceMarks, p.2 ≠ 0x66 := by decide
    exact hall p hp heq

/-- The override of an instruction without VEX is right exactly if the chosen form is not one of 16
bits, or its opcode has no mandatory prefix and the first operand that names a width names 16 bits;
the operands do so wherever every datum among them names a width. Where the override is right a
processor reads the immediate bytes that were emitted, and the 32-bit forms of the instruction have
other codes. -/
theorem sizeRight_iff {mnemonic : String} {mark : Option String} {ops : List Operand} {e : Encoded}
    (h : encodeFully mnemonic mark ops = .ok e) (hv : e.form.opcode.spec.vex = none) :
    (e.SizeRight ↔ (e.form.operationBits? = some 16 →
      e.form.opcode.spec.mandatory = none ∧ operationBits? ops = some 16)) ∧
    (e.form.operationBits? = some 16 → (∀ a, .mem a ∈ ops → ∃ n ≠ 0, a.bits = some n) →
      operationBits? ops = some 16) ∧
    (e.SizeRight →
      (8 * e.code.imm.length = if hasPlace .imm e.form.slots then
        immediateBits e.code.opcode e.code.lead.rexW e.code.sizeOverride else 0) ∧
      (e.form.operationBits? = some 16 → ∀ {mark' : Option String} {ops' : List Operand}
        {e' : Encoded}, encodeFully mnemonic mark' ops' = .ok e' →
        e'.form.operationBits? = some 32 → e'.code.bytes ≠ e.code.bytes)) := by
  refine ⟨?_, operationBits?_of_named h hv, fun hsize => ⟨imm_length_of_sizeRight h hv hsize, ?_⟩⟩
  · constructor
    · intro hsize hform
      exact (sizeOverride_eq h hv).mp (hsize.mpr hform)
    · intro himp
      constructor
      · intro hover
        exact operationBits?_of_sizeOverride h hv ((sizeOverride_eq h hv).mp hover).2
      · intro hform
        exact (sizeOverride_eq h hv).mpr (himp hform)
  · intro hform mark' ops' e' h' hform'
    exact bytes_ne_of_sizeRight h hv hsize hform h' hform'

/-- A move to a word of memory has the override. -/
theorem sizeRight_iff_of_mov :
    let ops : List Operand := [.mem { base := some .rax, bits := some 16 }, .imm 300]
    ∃ e, encodeFully "mov" none ops = .ok e ∧ e.form.opcode.spec.vex = none ∧
      (e.SizeRight ↔ (e.form.operationBits? = some 16 →
        e.form.opcode.spec.mandatory = none ∧ operationBits? ops = some 16)) := by
  intro ops
  obtain ⟨e, h, hv⟩ : ∃ e, encodeFully "mov" none ops = .ok e ∧ e.form.opcode.spec.vex = none :=
    exists_ok_of_any (by decide)
  exact ⟨e, h, hv, (sizeRight_iff h hv).1⟩

/-- The override is missing for a bit scan of words, whose code is that of the scan of doublewords,
and for a move to a datum of unknown width, whose immediate is two bytes short. -/
theorem not_sizeRight :
    (∃ e e', encodeFully "tzcnt" none [.reg (.gp .w16 0), .reg (.gp .w16 3)] = .ok e ∧
      encodeFully "tzcnt" none [.reg (.gp .w32 0), .reg (.gp .w32 3)] = .ok e' ∧
      e.form.opcode.spec.vex = none ∧ e.form.operationBits? = some 16 ∧
      e'.form.operationBits? = some 32 ∧ ¬ e.SizeRight ∧ e'.code.bytes = e.code.bytes) ∧
    ∃ e, encodeFully "mov" none [.mem { base := some .rax }, .imm 300] = .ok e ∧
      e.form.opcode.spec.vex = none ∧ e.form.operationBits? = some 16 ∧ ¬ e.SizeRight ∧
      8 * e.code.imm.length ≠
        immediateBits e.code.opcode e.code.lead.rexW e.code.sizeOverride := by
  obtain ⟨e, h, hv, hform, hover, hbytes⟩ :
      ∃ e, encodeFully "tzcnt" none [.reg (.gp .w16 0), .reg (.gp .w16 3)] = .ok e ∧
        e.form.opcode.spec.vex = none ∧ e.form.operationBits? = some 16 ∧
        e.code.sizeOverride = false ∧ e.code.bytes = [0xf3, 0x0f, 0xbc, 0xc3] :=
    exists_ok_of_any (by decide)
  obtain ⟨e', h', hform', hbytes'⟩ :
      ∃ e, encodeFully "tzcnt" none [.reg (.gp .w32 0), .reg (.gp .w32 3)] = .ok e ∧
        e.form.operationBits? = some 32 ∧ e.code.bytes = [0xf3, 0x0f, 0xbc, 0xc3] :=
    exists_ok_of_any (by decide)
  obtain ⟨m, hm, hmv, hmform, hmover, himm⟩ :
      ∃ e, encodeFully "mov" none [.mem { base := some .rax }, .imm 300] = .ok e ∧
        e.form.opcode.spec.vex = none ∧ e.form.operationBits? = some 16 ∧
        e.code.sizeOverride = false ∧ 8 * e.code.imm.length ≠
          immediateBits e.code.opcode e.code.lead.rexW e.code.sizeOverride :=
    exists_ok_of_any (by decide)
  refine ⟨⟨e, e', h, h', hv, hform, hform', ?_, hbytes'.trans hbytes.symm⟩,
    m, hm, hmv, hmform, ?_, himm⟩
  · simp [Encoded.SizeRight, hform, hover]
  · simp [Encoded.SizeRight, hmform, hmover]

end AsmBridge
