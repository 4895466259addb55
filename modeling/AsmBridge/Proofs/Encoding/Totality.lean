import AsmBridge.Proofs.Encoding.Immediates
import AsmBridge.Proofs.Encoding.Notation

/-!
# Every instruction is encoded or refused

For operands that a unit can have an instruction has a code of at most fifteen bytes or is refused
(`encodesOrRefuses`). No step on the way can fail in another manner: the operand types of the table
can be read, the chosen form has a type and a place for every operand, each place can hold what is
put there, and every field keeps to its bits (`Form.Fills`). The one exception is a number below
zero that is too long to be written, which cannot be refused because it cannot be shown.
-/

namespace AsmBridge

/-! ## What a form relies on -/

/-- The place can hold the operand, for which the form has the type. -/
def Place.Holds (place : Place) (t : OperandType) (o : Operand) : Prop :=
  match place with
  | .rm => (∃ r, o = .reg r) ∨ ∃ a, o = .mem a
  | .imm => ∃ w v, t = .imm w ∧ o = .imm v ∧
      (fitsSigned w.bits v = true ∨ fitsUnsigned w.bits v = true)
  | .implied => t.only? = some o
  | _ => ∃ r, o = .reg r

/-- The form can be filled in with the operands. -/
structure Form.Fills (f : Form) (ops : List Operand) : Prop where
  /-- Each operand has a type and a slot. -/
  operands : (f.rows ops).map (·.2.2) = ops
  holds : ∀ q ∈ f.rows ops, q.2.1.place.Holds q.1 q.2.2
  /-- The register field of ModR/M holds a register or bits of opcode, but not both. -/
  field : (Placed.ofForm f ops).reg = none ∨ f.opcode.spec.extension = none
  opcode : f.opcode.spec.opcode ≠ []
  /-- The fields of a VEX prefix keep to their bytes, whatever the registers are. -/
  vex : ∀ v ∈ f.opcode.spec.vex, ∀ (ext : Extension) (r : Register),
    (Vex.mk v ext r.number).bytes?.isSome = true

/-- A type that takes no numbers takes registers and data. -/
lemma OperandType.reg_or_mem_of_takes {t : OperandType} {o : Operand} (hone : t ≠ .one)
    (himm : t.immWidth? = none) (h : t.takes o = true) : (∃ r, o = .reg r) ∨ ∃ a, o = .mem a := by
  cases o with
  | reg r => exact .inl ⟨r, rfl⟩
  | mem a => exact .inr ⟨a, rfl⟩
  | imm v =>
    cases t with
    | one => exact absurd rfl hone
    | imm w => cases himm
    | mem bits => cases bits <;> cases h
    | _ => cases h
  | sym name =>
    cases t with
    | mem bits => cases bits <;> cases h
    | _ => cases h

/-- The bytes of a VEX prefix keep to eight bits if its fields keep to theirs. -/
lemma isSome_bytes? {v : VexSpec} (hw : v.w < 2) (hl : v.l < 2) (hpp : v.pp < 4) (hm : v.m < 32)
    (ext : Extension) (n : ℕ) : (Vex.mk v ext n).bytes?.isSome = true := by
  have hinverted : ∀ place ≤ 7, ∀ b, Vex.inverted place b < 2 ^ 8 := by decide
  have hregister : (15 - n % 16) <<< 3 < 2 ^ 8 := by
    rw [Nat.shiftLeft_eq]
    omega
  have hlength : v.l <<< 2 < 2 ^ 8 := by
    rw [Nat.shiftLeft_eq]
    omega
  have hwidth : v.w <<< 7 < 2 ^ 8 := by
    rw [Nat.shiftLeft_eq]
    omega
  have hvalues : (Vex.mk v ext n).values.all (· < 256) = true := by
    rw [List.all_eq_true]
    intro value hvalue
    rw [decide_eq_true_eq]
    unfold Vex.values at hvalue
    dsimp only at hvalue
    split_ifs at hvalue
    · simp only [List.mem_cons, List.not_mem_nil, or_false] at hvalue
      rcases hvalue with rfl | rfl
      · decide
      · exact Nat.or_lt_two_pow (Nat.or_lt_two_pow (Nat.or_lt_two_pow (hinverted 7 le_rfl _)
          hregister) hlength) (by omega)
    · simp only [List.mem_cons, List.not_mem_nil, or_false] at hvalue
      rcases hvalue with rfl | rfl | rfl
      · decide
      · exact Nat.or_lt_two_pow (Nat.or_lt_two_pow (Nat.or_lt_two_pow (hinverted 7 le_rfl _)
          (hinverted 6 (by decide) _)) (hinverted 5 (by decide) _)) (by omega)
      · exact Nat.or_lt_two_pow (Nat.or_lt_two_pow (Nat.or_lt_two_pow hwidth hregister) hlength)
          (by omega)
  rw [Vex.bytes?, if_pos hvalues]
  rfl

/-! ## The length of the code -/

namespace Placed

lemma length_immBytes_le (t : OperandType) (o : Operand) :
    (immBytes t o).length ≤ (t.immWidth?.map (·.bytes)).getD 0 := by
  unfold immBytes
  split
  · rw [length_littleEndian]
    rfl
  · exact Nat.zero_le _

/-- One operand more takes up no more than its room. -/
lemma length_imm_putRow (p : Placed) (q : Row) :
    (p.putRow q).imm.length ≤ p.imm.length + q.2.1.place.immRoom q.1 := by
  obtain ⟨t, ⟨place, use⟩, o⟩ := q
  cases place with
  | imm =>
    have himm : (p.putRow (t, ⟨.imm, use⟩, o)).imm = p.imm ++ immBytes t o := rfl
    rw [himm, List.length_append]
    exact Nat.add_le_add_left (length_immBytes_le t o) _
  | immRegister =>
    have himm : (p.putRow (t, ⟨.immRegister, use⟩, o)).imm.length = p.imm.length + 1 :=
      List.length_append
    rw [himm]
    rfl
  | _ => exact Nat.le_add_right _ _

lemma length_imm_foldl (rows : List Row) (p : Placed) :
    (rows.foldl putRow p).imm.length ≤
      p.imm.length + (rows.map fun q => q.2.1.place.immRoom q.1).sum := by
  induction rows generalizing p with
  | nil => exact Nat.le_refl _
  | cons q rows ih =>
    have hfirst := length_imm_putRow p q
    have hrest := ih (p.putRow q)
    rw [List.foldl_cons, List.map_cons, List.sum_cons]
    omega

/-- The immediate of a form that is filled in takes up no more than its room. -/
lemma length_imm_le {f : Form} {ops : List Operand} (hslots : f.slots.length = f.types.length)
    (hlen : f.types.length = ops.length) : (ofForm f ops).imm.length ≤ f.immRoom := by
  have hrows : (f.rows ops).map (fun q => q.2.1.place.immRoom q.1) =
      (f.types.zip f.slots).map fun q => q.2.place.immRoom q.1 := by
    have hfst : (f.slots.zip ops).map Prod.fst = f.slots := by
      refine List.map_fst_zip ?_
      omega
    conv_rhs => rw [← hfst, List.zip_map_right, List.map_map]
    rfl
  have hlength := length_imm_foldl (f.rows ops) {}
  rw [hrows] at hlength
  exact hlength.trans (Nat.zero_add _).le

end Placed

/-- What stands in front of the opcode keeps to its room. -/
lemma length_lead_le {spec : OpcodeSpec} {placed : Placed} {ext : Extension} {ops : List Operand}
    {lead : CodeLead} (h : codeLead spec placed ext ops = .ok lead) :
    (if overrides spec ops then [(0x66 : UInt8)] else []).length + lead.bytes.length ≤
      spec.leadRoom := by
  cases hv : spec.vex with
  | some v =>
    obtain ⟨rfl, -⟩ := codeLead_vex h hv
    have hnone : overrides spec ops = false := by simp [overrides, hv]
    have hlength : ∀ p : Vex, p.values.length ≤ 3 := by
      intro p
      unfold Vex.values
      dsimp only
      split_ifs
      · exact Nat.le_succ 2
      · exact Nat.le_refl 3
    rw [hnone, OpcodeSpec.leadRoom, hv, CodeLead.bytes, Vex.bytes, List.length_map]
    simpa using hlength _
  | none =>
    obtain ⟨rex, rfl, -⟩ := codeLead_legacy h hv
    have hrex : (rex.map (·.byte)).toList.length ≤ 1 := Option.length_toList_le
    have hprefix : (if overrides spec ops then [(0x66 : UInt8)] else []).length +
        spec.mandatory.toList.length ≤ 1 := by
      cases hmandatory : spec.mandatory with
      | some b => simp [overrides, hmandatory]
      | none => split_ifs <;> simp
    rw [OpcodeSpec.leadRoom, hv, CodeLead.bytes, List.length_append]
    simp only [Option.isSome_none, Bool.false_eq_true, if_false]
    omega

namespace AddressCode

variable {field : RegField} {c : AddressCode}

/-- A displacement has at most four bytes. -/
lemma length_disp_le {a : Address} (h : ofAddress field a = .ok c) : c.disp.length ≤ 4 := by
  have hdisp : ∀ {low : Fin 8} {d : ℤ} {p : Fin 4 × List UInt8}, dispField low d = .ok p →
      p.2.length ≤ 4 := by
    intro low d p hp
    unfold dispField at hp
    split_ifs at hp
    · obtain rfl := Except.ok.inj hp
      exact Nat.zero_le 4
    · obtain rfl := Except.ok.inj hp
      exact (length_littleEndian 1 _).le.trans (by decide)
    · split at hp
      · rename_i hbytes
        obtain rfl := Except.ok.inj hp
        exact (disp32_spec hbytes).1.le
      · cases hp
  unfold ofAddress at h
  split at h
  · cases h
  split at h
  · cases h
  split_ifs at h
  · unfold ofRip at h
    split_ifs at h
    split at h
    · rename_i hbytes
      obtain rfl := Except.ok.inj h
      exact (disp32_spec hbytes).1.le
    · cases h
  · split at h
    · unfold ofBaseless at h
      split at h
      · rename_i hbytes
        obtain rfl := Except.ok.inj h
        exact (disp32_spec hbytes).1.le
      · cases h
    · obtain ⟨p, hp, h⟩ := bind_eq_ok.mp h
      dsimp only at h
      split_ifs at h
      · obtain rfl := pure_eq_ok.mp h
        exact hdisp hp
      · obtain rfl := pure_eq_ok.mp h
        exact hdisp hp

/-- The operand field has at most six bytes. -/
lemma length_bytes_le {o : Operand} (h : ofOperand field o = .ok c) : c.bytes.length ≤ 6 := by
  have hdisp : c.disp.length ≤ 4 := by
    unfold ofOperand at h
    split at h
    · cases h
    · obtain rfl := Except.ok.inj h
      exact Nat.zero_le 4
    · exact length_disp_le h
    · cases h
    · cases h
  have hsib : (c.sib.map (·.byte)).toList.length ≤ 1 := Option.length_toList_le
  rw [AddressCode.bytes, List.length_append, List.length_append, List.length_singleton]
  omega

end AddressCode

section Fills

variable {entry : Table.Entry} {f : Form} {ops : List Operand}

/-- A chosen form can be filled in. -/
lemma fills_of_selectForm (hentry : entry ∈ Table.entries)
    (h : selectForm entry.mnemonic entry.forms ops = .ok f) : f.Fills ops := by
  obtain ⟨hf, hsuits, -⟩ := suits_of_selectForm h
  obtain ⟨-, htakes, -⟩ := selectForm_spec h
  have hregular := (Table.isRegular entry hentry).form f hf
  have hreadable := hregular.readable
  refine ⟨map_rows hreadable htakes.length_eq, fun q hq => ?_, ?_, ?_, fun v hv ext r => ?_⟩
  · have htells := hreadable.tells _ (Placed.mem_zip_of_mem_rows hq)
    have htake := Placed.takes_of_mem_rows htakes hq
    have hsuit := Placed.rel_of_mem_rows hsuits hq
    dsimp only at htells
    cases hplace : q.2.1.place with
    | rm =>
      obtain ⟨hone, himm⟩ := hregular.rm _ (Placed.mem_zip_of_mem_rows hq) hplace
      exact OperandType.reg_or_mem_of_takes hone himm htake
    | imm =>
      rw [hplace] at htells
      obtain ⟨w, hw⟩ := Option.isSome_iff_exists.mp htells
      obtain ⟨ht, v, hv⟩ := OperandType.exists_imm_of_takes hw htake
      rw [ht, hv] at hsuit
      exact ⟨w, v, ht, hv, (fits_of_suits_imm hsuit).imp_right And.left⟩
    | implied =>
      rw [hplace] at htells
      exact OperandType.only?_of_takes htells htake
    | _ =>
      rw [hplace] at htells
      exact OperandType.exists_reg_of_takes htells htake
  · cases hreg : hasPlace .reg f.slots with
    | true => exact .inr (hregular.extension hreg)
    | false => exact .inl (Placed.ofForm_reg_eq_none ops hreg)
  · exact hregular.opcode_ne_nil
  · obtain ⟨hw, hl, hpp, hm⟩ := hreadable.vex v hv
    exact isSome_bytes? hw hl hpp hm ext r.number

/-- The code of a form of the table has from one to fifteen bytes. -/
lemma length_bytes_mem (hentry : entry ∈ Table.entries) (hf : f ∈ entry.forms)
    (hlen : f.types.length = ops.length) {mark : Option String} {c : MachineCode}
    (h : f.assemble mark ops = .ok c) : 1 ≤ c.bytes.length ∧ c.bytes.length ≤ 15 := by
  have hregular := (Table.isRegular entry hentry).form f hf
  have hreadable := hregular.readable
  have hroom := hregular.length_le
  obtain ⟨field, address, byte, lead, -, haddress, -, hlead, rfl⟩ := Form.assemble_eq h
  have hopcode : 1 ≤ f.opcode.spec.opcode.length := List.length_pos_of_ne_nil hregular.opcode_ne_nil
  have hmark : byte.toList.length ≤ 1 := Option.length_toList_le
  have hleadRoom := length_lead_le hlead
  have himm := Placed.length_imm_le hreadable.length_slots hlen
  have hfield : ((address.map (·.bytes)).getD []).length ≤
      if hasPlace .rm f.slots then 6 else 0 := by
    cases address with
    | none => exact Nat.zero_le _
    | some a =>
      obtain ⟨o, ho, hcode⟩ := option_mapM_eq_some.mp haddress
      rw [if_pos (mem_of_ofForm_rm hreadable hlen ho).1]
      exact AddressCode.length_bytes_le hcode
  simp only [MachineCode.bytes, List.length_append, length_withRegister]
  omega

end Fills

/-! ## Numbers that cannot be shown -/

/-- A number below zero that is too long to be written does not fit 64 bits. -/
lemma leastWidth?_of_unwritable {v : ℤ} (hwritable : Text.isWritable v = false) :
    leastWidth? (fitsSigned · v) = none := by
  cases hwidth : leastWidth? (fitsSigned · v) with
  | none => rfl
  | some bits =>
    obtain ⟨hbits, hfits⟩ := leastWidth?_spec hwidth
    have hle : ∀ n ∈ Width.all.map (·.bits), n ≤ 64 := by decide
    have hfits64 : fitsSigned 64 v = true := fitsSigned_mono (hle bits hbits) hfits
    simp only [fitsSigned, Bool.and_eq_true, decide_eq_true_eq] at hfits64
    have hsmall : v.natAbs < 10 ^ 20 := by
      have hpow : ((2 ^ (64 - 1) : ℕ) : ℤ) = 9223372036854775808 := by decide
      rw [hpow] at hfits64
      omega
    have hlimit : 10 ^ 20 ≤ 10 ^ Text.digitLimit :=
      Nat.pow_le_pow_right (by decide) (by decide)
    have hshort : Text.isWritable v = true := decide_eq_true (hsmall.trans_le hlimit)
    rw [hwritable] at hshort
    cases hshort

/-- An operand cannot be shown in the refusal that it asks for just if it is a number below zero
that is too long to be written. -/
lemma shape_eq_unwritable_iff {o : Operand} :
    o.shape = .error .immediateUnwritable ↔ o.IsUnwritable := by
  constructor
  · intro h
    rcases failsWith_shape o _ h with hrefused | ⟨-, hunwritable⟩
    · cases hrefused
    · exact hunwritable
  · rintro ⟨v, hv, rfl, hwritable⟩
    have hshown : (v < 0 && !Text.isWritable v) = true := by simp [hv, hwritable]
    rw [Operand.shape, immShape, leastWidth?_of_unwritable hwritable]
    dsimp only
    rw [if_pos hshown]

/-- The first of the operands that has no shape is a number below zero that is too long to be
written. -/
def FirstUnwritable (ops : List Operand) : Prop :=
  ∃ before o after, ops = before ++ o :: after ∧ (∀ p ∈ before, ∃ s, p.shape = .ok s) ∧
    o.IsUnwritable

lemma shapes_eq_unwritable_iff {ops : List Operand} :
    shapes ops = .error .immediateUnwritable ↔ FirstUnwritable ops := by
  rw [shapes, mapM_eq_error]
  simp only [shape_eq_unwritable_iff]
  rfl

/-! ## The ends of an encoding -/

/-- The ends that the encoding of an instruction has. -/
structure EncodesOrRefuses (mnemonic : String) (mark : Option String) (ops : List Operand) :
    Prop where
  /-- The operand types of the instruction can be read. -/
  read : ∀ entry, Table.lookup? mnemonic = some entry → ∀ f ∈ entry.forms, ∀ t ∈ f.types,
    OperandType.read? t.text.toList = some t
  /-- A chosen form can be filled in. -/
  fills : ∀ entry f, Table.lookup? mnemonic = some entry →
    selectForm entry.mnemonic entry.forms ops = .ok f → f.Fills ops
  length : ∀ bytes, encode mnemonic mark ops = .ok bytes → 1 ≤ bytes.length ∧ bytes.length ≤ 15
  refused : ∀ e, encode mnemonic mark ops = .error e → e.isRefusal = true ∨ e = .immediateUnwritable
  /-- What is not refused is just what cannot be shown. -/
  unwritable : encode mnemonic mark ops = .error .immediateUnwritable ↔
    (Table.lookup? mnemonic).isSome = true ∧ FirstUnwritable ops

section Ends

variable {mnemonic : String} {mark : Option String} {ops : List Operand}

/-- An instruction of the table is not refused if the first operand without a shape cannot be
shown, whatever else stands among the operands. -/
lemma encode_eq_unwritable {entry : Table.Entry} (hentry : Table.lookup? mnemonic = some entry)
    (h : FirstUnwritable ops) : encode mnemonic mark ops = .error .immediateUnwritable := by
  have hselect : selectForm entry.mnemonic entry.forms ops = .error .immediateUnwritable :=
    bind_eq_error.mpr (.inl (shapes_eq_unwritable_iff.mpr h))
  have hfully : encodeFully mnemonic mark ops = .error .immediateUnwritable := by
    rw [encodeFully, hentry]
    exact bind_eq_error.mpr (.inl hselect)
  rw [encode, hfully]
  rfl

/-- The choice of a form stops at a number that cannot be shown only when it asks for shapes. -/
lemma firstUnwritable_of_selectForm {entry : Table.Entry}
    (h : selectForm entry.mnemonic entry.forms ops = .error .immediateUnwritable) :
    FirstUnwritable ops := by
  rcases bind_eq_error.mp h with h | ⟨ss, -, h⟩
  · exact shapes_eq_unwritable_iff.mp h
  · dsimp only at h
    split_ifs at h
    · cases h
    · split at h
      · cases h
      · split at h <;> cases h

/-- An instruction that is neither encoded nor refused is in the table, and has operands that cannot
be shown. -/
lemma firstUnwritable_of_encode (hops : ∀ a, .mem a ∈ ops → a.ripRelative = false)
    (h : encode mnemonic mark ops = .error .immediateUnwritable) :
    (Table.lookup? mnemonic).isSome = true ∧ FirstUnwritable ops := by
  have hfully : encodeFully mnemonic mark ops = .error .immediateUnwritable := by
    rw [encode] at h
    cases hcode : encodeFully mnemonic mark ops with
    | ok e => rw [hcode] at h; cases h
    | error e => rw [hcode] at h; exact congrArg _ (Except.error.inj h)
  rw [encodeFully] at hfully
  cases hentry : Table.lookup? mnemonic with
  | none =>
    rw [hentry] at hfully
    cases hfully
  | some entry =>
    rw [hentry] at hfully
    rcases bind_eq_error.mp hfully with hselect | ⟨f, hf, hcode⟩
    · exact ⟨rfl, firstUnwritable_of_selectForm hselect⟩
    · obtain ⟨hmem, htakes, -⟩ := selectForm_spec hf
      have hlisted : f.IsListed := ⟨entry, Table.mem_of_lookup? hentry, hmem⟩
      rcases bind_eq_error.mp hcode with hassemble | ⟨c, -, hdone⟩
      · have hrefused := failsWith_assemble hlisted htakes.length_eq hops mark _ hassemble
        cases hrefused
      · cases hdone

/-- An instruction with operands of a unit, none of them relative to the instruction pointer, is
encoded in at most fifteen bytes, or it is refused, but for a number that cannot be shown. -/
theorem encodesOrRefuses (hops : ∀ a, .mem a ∈ ops → a.IsReadable ∧ a.ripRelative = false)
    (mnemonic : String) (mark : Option String) : EncodesOrRefuses mnemonic mark ops := by
  refine ⟨?_, ?_, ?_, ?_, firstUnwritable_of_encode fun a ha => (hops a ha).2, ?_⟩
  · intro entry hentry f hf t ht
    refine OperandType.read?_text ?_
    rintro r rfl
    exact ((Table.isRegular entry (Table.mem_of_lookup? hentry)).form f hf).literal _ ht rfl
  · intro entry f hentry hf
    exact fills_of_selectForm (Table.mem_of_lookup? hentry) hf
  · intro bytes h
    obtain ⟨e, he, rfl⟩ := map_eq_ok.mp h
    obtain ⟨entry, hentry, -, hf, htakes, -, hcode⟩ := encodeFully_entry he
    exact length_bytes_mem hentry hf htakes.length_eq hcode
  · intro e h
    exact (failsWith_encode hops mnemonic mark e h).imp_right And.left
  · rintro ⟨hlisted, hfirst⟩
    obtain ⟨entry, hentry⟩ := Option.isSome_iff_exists.mp hlisted
    exact encode_eq_unwritable hentry hfirst

end Ends

end AsmBridge
