import AsmBridge.Proofs.Encoding.Address
import AsmBridge.Proofs.Encoding.Places

/-!
# Encoding can be undone

The code of an instruction, read with the opcode and the operand places of its form alone, splits
into its fields with nothing left over, and from the fields every operand is recovered: registers by
their four-bit numbers, the high bytes told from the registers that need an extension byte by its
absence, addresses by base, index, scale and displacement, and immediates modulo the size of their
field. Different operands of one form therefore have different codes.
-/

namespace AsmBridge

/-! ## What an encoder has filled in -/

/-- A filled form, by its fields. -/
lemma Form.assemble_eq {f : Form} {mark : Option String} {ops : List Operand} {c : MachineCode}
    (h : f.assemble mark ops = .ok c) :
    ∃ field address byte lead, regField (Placed.ofForm f ops).reg f.opcode.spec.extension =
        .ok field ∧
      (Placed.ofForm f ops).rm.mapM (AddressCode.ofOperand field) = .ok address ∧
      markByte mark = .ok byte ∧
      codeLead f.opcode.spec (Placed.ofForm f ops)
        (Extension.join { b := ((Placed.ofForm f ops).opcode.map (·.extended)).getD false }
          ((address.map (·.ext)).getD {})) ops = .ok lead ∧
      c = ⟨byte, overrides f.opcode.spec ops, lead,
        withRegister f.opcode.spec.opcode (Placed.ofForm f ops).opcode, address,
        (Placed.ofForm f ops).imm⟩ := by
  obtain ⟨field, hfield, h⟩ := bind_eq_ok.mp h
  obtain ⟨address, haddress, h⟩ := bind_eq_ok.mp h
  obtain ⟨byte, hbyte, h⟩ := bind_eq_ok.mp h
  obtain ⟨lead, hlead, h⟩ := bind_eq_ok.mp h
  exact ⟨field, address, byte, lead, hfield, haddress, hbyte, hlead, (pure_eq_ok.mp h).symm⟩

/-- A register that is not found among the operands has not the property. -/
lemma findRegister?_eq_none {p : Register → Bool} {ops : List Operand}
    (h : findRegister? p ops = none) {r : Register} (hr : Operand.reg r ∈ ops) : p r = false := by
  have hnone := List.findSome?_eq_none_iff.mp h _ hr
  cases hp : p r with
  | false => rfl
  | true => simp [hp] at hnone

section Lead

variable {spec : OpcodeSpec} {placed : Placed} {ext : Extension} {ops : List Operand}
  {lead : CodeLead}

/-- Without VEX the lead has the mandatory prefix of the opcode. -/
lemma codeLead_legacy (h : codeLead spec placed ext ops = .ok lead) (hv : spec.vex = none) :
    ∃ rex, lead = .legacy spec.mandatory rex ∧
      ((rex = none ∧ spec.rexW = false ∧ ext.any = false ∧ placed.needsRex = false) ∨
        (rex = some ⟨spec.rexW, ext⟩ ∧ findRegister? (·.isHighByte) ops = none)) := by
  unfold codeLead at h
  rw [hv] at h
  dsimp only at h
  split_ifs at h with hrex
  · split at h
    · cases h
    · rename_i hnone
      exact ⟨_, (Except.ok.inj h).symm, .inr ⟨rfl, hnone⟩⟩
  · simp only [Bool.or_eq_true, not_or, Bool.not_eq_true] at hrex
    exact ⟨_, (Except.ok.inj h).symm, .inl ⟨rfl, hrex.1.1, hrex.1.2, hrex.2⟩⟩

/-- With VEX the lead has the fields of the opcode and the number of the third register. -/
lemma codeLead_vex (h : codeLead spec placed ext ops = .ok lead) {v : VexSpec}
    (hv : spec.vex = some v) :
    lead = .vex ⟨v, ext, (placed.vvvv.map (·.number)).getD 0⟩ ∧
      findRegister? (·.needsExtension) ops = none := by
  unfold codeLead at h
  rw [hv] at h
  dsimp only at h
  split at h
  · cases h
  · rename_i hnone
    exact ⟨(Except.ok.inj h).symm, hnone⟩

/-- The lead holds the fourth bits of the register numbers. -/
lemma codeLead_ext (h : codeLead spec placed ext ops = .ok lead) : lead.ext = ext := by
  cases hv : spec.vex with
  | some v => rw [(codeLead_vex h hv).1, CodeLead.ext]
  | none =>
    obtain ⟨rex, rfl, ⟨rfl, -, hany, -⟩ | ⟨rfl, -⟩⟩ := codeLead_legacy h hv
    · obtain ⟨r, x, b⟩ := ext
      simp only [Extension.any, Bool.or_eq_false_iff] at hany
      obtain ⟨⟨rfl, rfl⟩, rfl⟩ := hany
      rfl
    · rfl

/-- Beside a high byte there is no extension byte. -/
lemma codeLead_highByte (h : codeLead spec placed ext ops = .ok lead) {r : Register}
    (hr : .reg r ∈ ops) (hhigh : r.isHighByte = true) : lead.hasRex = false := by
  cases hv : spec.vex with
  | some v => rw [(codeLead_vex h hv).1, CodeLead.hasRex]
  | none =>
    obtain ⟨rex, rfl, ⟨rfl, -, -, -⟩ | ⟨rfl, hnone⟩⟩ := codeLead_legacy h hv
    · rfl
    · rw [findRegister?_eq_none hnone hr] at hhigh
      cases hhigh

/-- Beside a register that needs an extension byte there is one. -/
lemma codeLead_needsExtension (h : codeLead spec placed ext ops = .ok lead) {r : Register}
    (hr : .reg r ∈ ops) (hneeds : r.needsExtension = true) (hplaced : placed.needsRex = true) :
    lead.hasRex = true := by
  cases hv : spec.vex with
  | some v =>
    rw [findRegister?_eq_none (codeLead_vex h hv).2 hr] at hneeds
    cases hneeds
  | none =>
    obtain ⟨rex, rfl, ⟨-, -, -, hnot⟩ | ⟨rfl, -⟩⟩ := codeLead_legacy h hv
    · rw [hplaced] at hnot
      cases hnot
    · rfl

end Lead

/-! ## The bytes of an immediate -/

lemma Placed.length_immBytes (w : Width) (v : ℤ) :
    (immBytes (.imm w) (.imm v)).length = w.bytes :=
  length_littleEndian _ _

/-- The bytes of an immediate hold its word. -/
lemma Placed.ofLittleEndian_immBytes (w : Width) (v : ℤ) :
    ofLittleEndian (immBytes (.imm w) (.imm v)) = wrapped w.bits v := by
  have hpow : 256 ^ w.bytes = 2 ^ w.bits := by cases w <;> rfl
  rw [immBytes, ofLittleEndian_littleEndian, hpow, Nat.mod_eq_of_lt (wrapped_lt _ _)]

/-! ## Readings of operands -/

/-- The operand in a place, as the code shows it. -/
def MachineCode.operandAt (c : MachineCode) : Place → OperandReading
  | .opcode => .register (fourBits c.lead.ext.b (Fin.ofNat 8 (c.opcode.getLast?.getD 0).toNat))
  | .rm => (c.address.map (·.reading)).getD .implied
  | .reg => .register (fourBits c.lead.ext.r ((c.address.map (·.modrm.reg)).getD 0))
  | .vvvv =>
    match c.lead with
    | .vex p => .register p.v
    | .legacy _ _ => .implied
  | .immRegister =>
    match c.imm with
    | [b] => .register (b.toNat / 16)
    | _ => .implied
  | .imm => .immediate (8 * c.imm.length) (ofLittleEndian c.imm)
  | .implied => .implied

/-- The reading recovers an operand of the type, where `rex` tells whether there is an extension
byte. -/
def OperandReading.Recovers (t : OperandType) (rex : Bool) : OperandReading → Operand → Prop
  | .register n, .reg r => n = r.number ∧ (r.isHighByte = true → rex = false) ∧
      (r.needsExtension = true → rex = true)
  | .address base index scale disp, .mem a => base = a.base ∧ index = a.index ∧ disp = a.disp ∧
      (a.index.isSome = true → scale = Sib.scaleField a.scale)
  | .immediate bits n, .imm v => t.immWidth?.map (·.bits) = some bits ∧ n = wrapped bits v
  | .implied, o => t.only? = some o
  | _, _ => False

/-! ## The layout of a filled form -/

/-- With a register in its low bits an opcode still begins as it did for a reader. -/
lemma exists_head_withRegister {bytes : List UInt8} {r : Option Register}
    (h : headIsOpcode bytes ((r.map (·.low)).getD 0) = true) :
    ∃ b bs, withRegister bytes r = b :: bs ∧ b.toNat / 16 ≠ 4 ∧ b ≠ 0x66 := by
  match bytes, r with
  | [b], none => exact ⟨b, [], rfl, by simpa [headIsOpcode] using h⟩
  | [b], some r => exact ⟨_, [], rfl, by simpa [headIsOpcode] using h⟩
  | b :: c :: bs, none => exact ⟨b, c :: bs, rfl, by simpa [headIsOpcode] using h⟩
  | b :: c :: bs, some r =>
    have hlast : (b :: c :: bs).getLast? = (c :: bs).getLast? := List.getLast?_cons_cons
    obtain ⟨d, hd⟩ := Option.isSome_iff_exists.mp (List.getLast?_isSome.mpr (List.cons_ne_nil c bs))
    refine ⟨b, (c :: bs).dropLast ++ [d ||| UInt8.ofNat r.low.val], ?_, ?_⟩
    · rw [withRegister, hlast, hd]
      rfl
    · simpa [headIsOpcode] using h

lemma length_withRegister (bytes : List UInt8) (r : Option Register) :
    (withRegister bytes r).length = bytes.length := by
  cases r with
  | none => rfl
  | some r =>
    rw [withRegister]
    cases hlast : bytes.getLast? with
    | none => rfl
    | some b =>
      have hne : bytes ≠ [] := by
        rintro rfl
        cases hlast
      have hpos := List.length_pos_of_ne_nil hne
      simp only [List.length_append, List.length_dropLast, List.length_singleton]
      omega

section Filled

variable {f : Form} {ops : List Operand} {c : MachineCode}

/-- Beside an operand field no register is in the opcode. -/
lemma ofForm_opcode_of_rm (hf : f.IsReadable) (h : hasPlace .rm f.slots = true) :
    (Placed.ofForm f ops).opcode = none := by
  apply Placed.ofForm_opcode_eq_none
  by_contra hopcode
  rw [Bool.not_eq_false] at hopcode
  rw [(hf.opcode hopcode).1] at h
  cases h

/-- What stands in the operand field is an operand. -/
lemma mem_of_ofForm_rm (hf : f.IsReadable) (hlen : f.types.length = ops.length) {o : Operand}
    (h : (Placed.ofForm f ops).rm = some o) : hasPlace .rm f.slots = true ∧ o ∈ ops := by
  have hrm : hasPlace .rm f.slots = true := by
    by_contra hno
    rw [Placed.ofForm_rm_eq_none ops (Bool.eq_false_iff.mpr hno)] at h
    cases h
  obtain ⟨q, hq, hplace⟩ := Placed.exists_row_of_hasPlace hf.length_slots hlen hrm
  rw [Placed.ofForm_rm hf hlen hq hplace, Option.some.injEq] at h
  exact ⟨hrm, h ▸ Placed.mem_ops_of_mem_rows hq⟩

/-- The operand field of a filled form comes from an operand, is laid out, and the lead holds its
fourth bits. -/
lemma address_isLaidOut (hf : f.IsReadable) (hlen : f.types.length = ops.length)
    (hrip : ∀ a, .mem a ∈ ops → a.index ≠ some .rip) {mark : Option String}
    (h : f.assemble mark ops = .ok c) {a : AddressCode} (ha : c.address = some a) :
    hasPlace .rm f.slots = true ∧ a.IsLaidOut ∧ a.ext = c.lead.ext := by
  obtain ⟨field, address, byte, lead, -, haddress, -, hlead, rfl⟩ := Form.assemble_eq h
  dsimp only at ha ⊢
  subst ha
  obtain ⟨o, ho, hcode⟩ := option_mapM_eq_some.mp haddress
  obtain ⟨hrm, hmem⟩ := mem_of_ofForm_rm hf hlen ho
  refine ⟨hrm, ?_, ?_⟩
  · cases o with
    | reg r => exact (AddressCode.ofOperand_reg hcode).1
    | mem b => exact (AddressCode.ofAddress_spec (hrip b hmem) hcode).1
    | imm v => cases hcode
    | sym name => cases hcode
  · rw [codeLead_ext hlead, ofForm_opcode_of_rm hf hrm]
    simp [Extension.join]

/-- A filled form is laid out as a reader expects. -/
theorem assemble_isLaidOut (hf : f.IsReadable) (hlen : f.types.length = ops.length)
    (hrip : ∀ a, .mem a ∈ ops → a.index ≠ some .rip) (h : f.assemble none ops = .ok c) :
    c.IsLaidOut f.opcode.spec f.slots := by
  have haddr := fun a => address_isLaidOut (a := a) hf hlen hrip h
  obtain ⟨field, address, byte, lead, -, haddress, hbyte, hlead, rfl⟩ := Form.assemble_eq h
  refine ⟨?_, ?_, ?_, ?_, length_withRegister _ _, ?_, ?_, ?_, ?_⟩
  · exact (Except.ok.inj hbyte).symm
  · intro hover
    simp only [overrides, Bool.and_eq_true, Option.isNone_iff_eq_none] at hover
    exact hover.1
  · intro hv
    obtain ⟨rex, hrex, -⟩ := codeLead_legacy hlead hv
    exact ⟨rex, hrex⟩
  · intro v hv
    obtain ⟨hw, hl, hpp, hm⟩ := hf.vex v hv
    refine ⟨⟨hw, hl, hpp, hm⟩, _, (codeLead_vex hlead hv).1, rfl, ?_⟩
    cases (Placed.ofForm f ops).vvvv with
    | none => exact Nat.succ_pos 15
    | some r => exact r.number_lt
  · intro hv
    apply exists_head_withRegister
    exact List.all_eq_true.mp (hf.head hv) _ (Placed.low_mem_lowBits f ops)
  · cases hrm : hasPlace .rm f.slots with
    | false =>
      rw [Placed.ofForm_rm_eq_none ops hrm] at haddress
      obtain rfl := Except.ok.inj haddress
      rfl
    | true =>
      obtain ⟨q, hq, hplace⟩ := Placed.exists_row_of_hasPlace hf.length_slots hlen hrm
      cases address with
      | some a => rfl
      | none =>
        rw [option_mapM_eq_none, Placed.ofForm_rm hf hlen hq hplace] at haddress
        cases haddress
  · intro a ha
    exact (haddr a ha).2
  · intro himm
    by_contra hno
    exact himm (Placed.ofForm_imm_eq_nil ops (Bool.eq_false_iff.mpr hno))

end Filled

/-! ## Recovering operands -/

namespace OperandType

variable {t : OperandType} {o : Operand}

/-- A type of registers takes a register. -/
lemma exists_reg_of_takes (ht : t.isRegister = true) (h : t.takes o = true) : ∃ r, o = .reg r := by
  cases t <;> cases o <;> simp_all [isRegister, takes]

/-- A type of immediates takes a number. -/
lemma exists_imm_of_takes {w : Width} (ht : t.immWidth? = some w) (h : t.takes o = true) :
    t = .imm w ∧ ∃ v, o = .imm v := by
  cases t <;> cases o <;> simp_all [immWidth?, takes]

/-- A type of one operand takes that one. -/
lemma only?_of_takes (ht : t.only?.isSome = true) (h : t.takes o = true) : t.only? = some o := by
  cases t <;> simp_all [only?, takes]

end OperandType

/-- The low bits of an opcode byte whose own low bits are clear. -/
lemma or_low_mod (b : UInt8) (n : Fin 8) (hb : b.toNat % 8 = 0) :
    Fin.ofNat 8 (b ||| UInt8.ofNat n.val).toNat = n := by
  apply Fin.ext
  have hn : n.val % 2 ^ 8 = n.val := Nat.mod_eq_of_lt (by omega)
  have hlow : n.val % 2 ^ 3 = n.val := Nat.mod_eq_of_lt n.isLt
  rw [Fin.val_ofNat, UInt8.toNat_or, UInt8.toNat_ofNat', hn]
  change (b.toNat ||| n.val) % 2 ^ 3 = n.val
  rw [Nat.or_mod_two_pow, hlow, show b.toNat % 2 ^ 3 = 0 from hb, Nat.zero_or]

lemma getLast?_withRegister {bytes : List UInt8} {b : UInt8} (h : bytes.getLast? = some b)
    (r : Register) :
    (withRegister bytes (some r)).getLast? = some (b ||| UInt8.ofNat r.low.val) := by
  rw [withRegister, h]
  exact List.getLast?_concat

section Recovery

variable {f : Form} {ops : List Operand} {c : MachineCode} {q : Placed.Row} {mark : Option String}

/-- A number in a place of registers recovers the register, the extension byte included. -/
lemma register_recovers (h : f.assemble mark ops = .ok c) (hq : q ∈ f.rows ops)
    (hplace : q.2.1.place.holdsRegister = true) {r : Register} (hr : q.2.2 = .reg r) {n : ℕ}
    (hn : n = r.number) :
    (OperandReading.register n).Recovers q.1 c.lead.hasRex (.reg r) := by
  obtain ⟨field, address, byte, lead, -, -, -, hlead, rfl⟩ := Form.assemble_eq h
  have hmem : Operand.reg r ∈ ops := hr ▸ Placed.mem_ops_of_mem_rows hq
  refine ⟨hn, fun hhigh => codeLead_highByte hlead hmem hhigh, fun hneeds => ?_⟩
  exact codeLead_needsExtension hlead hmem hneeds
    (Placed.ofForm_needsRex hq hplace (by rw [hr]; exact hneeds))

variable (hf : f.IsReadable) (htakes : List.Forall₂ (fun t o => t.takes o = true) f.types ops)
include hf htakes

/-- A register in a place of registers. -/
lemma exists_reg_of_place (hq : q ∈ f.rows ops) (hrm : q.2.1.place ≠ .rm)
    (hplace : q.2.1.place.holdsRegister = true) : ∃ r, q.2.2 = .reg r := by
  have htells := hf.tells _ (Placed.mem_zip_of_mem_rows hq)
  have ht := Placed.takes_of_mem_rows htakes hq
  refine OperandType.exists_reg_of_takes ?_ ht
  cases hp : q.2.1.place <;> simp_all [Place.tells, Place.holdsRegister]

/-- The register in the opcode is recovered. -/
lemma opcode_recovers (h : f.assemble mark ops = .ok c) (hq : q ∈ f.rows ops)
    (hplace : q.2.1.place = .opcode) :
    (c.operandAt .opcode).Recovers q.1 c.lead.hasRex q.2.2 := by
  obtain ⟨r, hr⟩ := exists_reg_of_place hf htakes hq (by simp [hplace])
    (by simp [hplace, Place.holdsRegister])
  rw [hr]
  apply register_recovers h hq (by simp [hplace, Place.holdsRegister]) hr
  obtain ⟨field, address, byte, lead, -, haddress, -, hlead, rfl⟩ := Form.assemble_eq h
  have hop : (Placed.ofForm f ops).opcode = some r := by
    rw [Placed.ofForm_opcode hf htakes.length_eq hq hplace, hr]
    rfl
  obtain ⟨hrm, b, hb, hmod⟩ := hf.opcode (hplace ▸ Placed.hasPlace_of_mem_rows hq)
  rw [Placed.ofForm_rm_eq_none ops hrm] at haddress
  obtain rfl := Except.ok.inj haddress
  have hext := codeLead_ext hlead
  rw [hop] at hext ⊢
  dsimp only
  rw [hext, getLast?_withRegister hb, Option.getD_some, or_low_mod b r.low hmod, ← fourBits_low r]
  simp [Extension.join]

/-- The operand in the operand field is recovered. -/
lemma rm_recovers (hrip : ∀ a, .mem a ∈ ops → a.index ≠ some .rip)
    (h : f.assemble mark ops = .ok c) (hq : q ∈ f.rows ops) (hplace : q.2.1.place = .rm) :
    (c.operandAt .rm).Recovers q.1 c.lead.hasRex q.2.2 := by
  have hreg := fun (r : Register) (hr : q.2.2 = .reg r) =>
    register_recovers (n := r.number) h hq (by simp [hplace, Place.holdsRegister]) hr rfl
  obtain ⟨field, address, byte, lead, -, haddress, -, hlead, rfl⟩ := Form.assemble_eq h
  have hmem := Placed.mem_ops_of_mem_rows hq
  rw [Placed.ofForm_rm hf htakes.length_eq hq hplace] at haddress
  cases address with
  | none => cases option_mapM_eq_none.mp haddress
  | some a =>
    obtain ⟨o, ho, hcode⟩ := option_mapM_eq_some.mp haddress
    obtain rfl := Option.some.inj ho
    dsimp only [MachineCode.operandAt, Option.map_some, Option.getD_some]
    cases hr : q.2.2 with
    | reg r =>
      rw [hr] at hcode
      rw [(AddressCode.ofOperand_reg hcode).2]
      exact hreg r hr
    | mem b =>
      rw [hr] at hcode hmem
      obtain ⟨-, scale, hread, hscale⟩ := AddressCode.ofAddress_spec (hrip b hmem) hcode
      rw [hread]
      exact ⟨rfl, rfl, rfl, hscale⟩
    | imm v => rw [hr] at hcode; cases hcode
    | sym name => rw [hr] at hcode; cases hcode

/-- The register beside the operand field is recovered. -/
lemma reg_recovers (h : f.assemble mark ops = .ok c) (hq : q ∈ f.rows ops)
    (hplace : q.2.1.place = .reg) :
    (c.operandAt .reg).Recovers q.1 c.lead.hasRex q.2.2 := by
  obtain ⟨r, hr⟩ := exists_reg_of_place hf htakes hq (by simp [hplace])
    (by simp [hplace, Place.holdsRegister])
  rw [hr]
  apply register_recovers h hq (by simp [hplace, Place.holdsRegister]) hr
  obtain ⟨field, address, byte, lead, hfield, haddress, -, hlead, rfl⟩ := Form.assemble_eq h
  have hrm := hf.rm_of_reg (hplace ▸ Placed.hasPlace_of_mem_rows hq)
  have hreg : (Placed.ofForm f ops).reg = some r := by
    rw [Placed.ofForm_reg hf htakes.length_eq hq hplace, hr]
    rfl
  have hvalue : field = .register r := by
    rw [hreg] at hfield
    cases hext : f.opcode.spec.extension with
    | none => rw [hext] at hfield; exact (Except.ok.inj hfield).symm
    | some n => rw [hext] at hfield; cases hfield
  obtain ⟨q', hq', hplace'⟩ := Placed.exists_row_of_hasPlace hf.length_slots htakes.length_eq hrm
  rw [Placed.ofForm_rm hf htakes.length_eq hq' hplace'] at haddress
  cases address with
  | none => cases option_mapM_eq_none.mp haddress
  | some a =>
    obtain ⟨o, -, hcode⟩ := option_mapM_eq_some.mp haddress
    obtain ⟨hextR, hlow⟩ := AddressCode.ofOperand_field hcode
    have hext := codeLead_ext hlead
    rw [ofForm_opcode_of_rm hf hrm] at hext
    dsimp only [Option.map_some, Option.getD_some]
    rw [hext, hlow, hvalue, ← fourBits_low r]
    rw [hvalue] at hextR
    simp [Extension.join, hextR, RegField.extended, RegField.low]

/-- The third register of a VEX form is recovered. -/
lemma vvvv_recovers (h : f.assemble mark ops = .ok c) (hq : q ∈ f.rows ops)
    (hplace : q.2.1.place = .vvvv) :
    (c.operandAt .vvvv).Recovers q.1 c.lead.hasRex q.2.2 := by
  obtain ⟨r, hr⟩ := exists_reg_of_place hf htakes hq (by simp [hplace])
    (by simp [hplace, Place.holdsRegister])
  have hrec := register_recovers (n := r.number) h hq (by simp [hplace, Place.holdsRegister]) hr rfl
  obtain ⟨field, address, byte, lead, -, -, -, hlead, rfl⟩ := Form.assemble_eq h
  obtain ⟨v, hv⟩ := Option.isSome_iff_exists.mp
    (hf.vex_of_vvvv (hplace ▸ Placed.hasPlace_of_mem_rows hq))
  have hreg : (Placed.ofForm f ops).vvvv = some r := by
    rw [Placed.ofForm_vvvv hf htakes.length_eq hq hplace, hr]
    rfl
  have hvex := (codeLead_vex hlead hv).1
  rw [hreg] at hvex
  subst hvex
  rw [hr]
  exact hrec

/-- The register in an immediate byte is recovered. -/
lemma immRegister_recovers (h : f.assemble mark ops = .ok c) (hq : q ∈ f.rows ops)
    (hplace : q.2.1.place = .immRegister) :
    (c.operandAt .immRegister).Recovers q.1 c.lead.hasRex q.2.2 := by
  obtain ⟨r, hr⟩ := exists_reg_of_place hf htakes hq (by simp [hplace])
    (by simp [hplace, Place.holdsRegister])
  have hnumber : (UInt8.ofNat (16 * r.number)).toNat / 16 = r.number := by
    have hlt := r.number_lt
    rw [UInt8.toNat_ofNat']
    omega
  have hrec := register_recovers h hq (by simp [hplace, Place.holdsRegister]) hr hnumber
  obtain ⟨field, address, byte, lead, -, -, -, hlead, rfl⟩ := Form.assemble_eq h
  dsimp only [MachineCode.operandAt]
  rw [Placed.ofForm_immRegister hf htakes.length_eq hq hplace, hr]
  exact hrec

/-- An immediate is recovered modulo the size of its field. -/
lemma imm_recovers (h : f.assemble mark ops = .ok c) (hq : q ∈ f.rows ops)
    (hplace : q.2.1.place = .imm) :
    (c.operandAt .imm).Recovers q.1 c.lead.hasRex q.2.2 := by
  have htells := hf.tells _ (Placed.mem_zip_of_mem_rows hq)
  rw [hplace] at htells
  obtain ⟨w, hw⟩ := Option.isSome_iff_exists.mp htells
  obtain ⟨ht, v, hv⟩ := OperandType.exists_imm_of_takes hw (Placed.takes_of_mem_rows htakes hq)
  obtain ⟨field, address, byte, lead, -, -, -, hlead, rfl⟩ := Form.assemble_eq h
  have hbits : 8 * w.bytes = w.bits := by cases w <;> rfl
  dsimp only [MachineCode.operandAt]
  rw [Placed.ofForm_imm hf htakes.length_eq hq hplace, ht, hv, Placed.ofLittleEndian_immBytes,
    Placed.length_immBytes, hbits]
  exact ⟨rfl, rfl⟩

/-- Every operand of a filled form is recovered from its place. -/
theorem operandAt_recovers (hrip : ∀ a, .mem a ∈ ops → a.index ≠ some .rip)
    (h : f.assemble mark ops = .ok c) (hq : q ∈ f.rows ops) :
    (c.operandAt q.2.1.place).Recovers q.1 c.lead.hasRex q.2.2 := by
  cases hplace : q.2.1.place with
  | opcode => exact opcode_recovers hf htakes h hq hplace
  | rm => exact rm_recovers hf htakes hrip h hq hplace
  | reg => exact reg_recovers hf htakes h hq hplace
  | vvvv => exact vvvv_recovers hf htakes h hq hplace
  | immRegister => exact immRegister_recovers hf htakes h hq hplace
  | imm => exact imm_recovers hf htakes h hq hplace
  | implied =>
    have htells := hf.tells _ (Placed.mem_zip_of_mem_rows hq)
    rw [hplace] at htells
    exact OperandType.only?_of_takes htells (Placed.takes_of_mem_rows htakes hq)

end Recovery

/-! ## Different operands have different codes -/

/-- Two operands of the type are the same, up to what no code of that type shows: the named width of
a datum, the scale of an absent index, and multiples of the size of an immediate's field. -/
def OperandType.Agree (t : OperandType) : Operand → Operand → Prop
  | .reg r, .reg r' => r = r'
  | .mem a, .mem b => a.base = b.base ∧ a.index = b.index ∧ a.disp = b.disp ∧
      (a.index.isSome = true → Sib.scaleField a.scale = Sib.scaleField b.scale)
  | .imm v, .imm v' => ∀ w, t.immWidth? = some w → wrapped w.bits v = wrapped w.bits v'
  | _, _ => False

/-- Without an extension byte a byte register has not the number of a high byte. -/
lemma number_ne_of_highByte {w : Width} {n : Fin 16} {m : Fin 4} {rex : Bool}
    (hbits : (Register.gp w n).bits = (Register.highByte m).bits)
    (hneeds : (Register.gp w n).needsExtension = true → rex = true) (hrex : rex = false) :
    (Register.gp w n).number ≠ (Register.highByte m).number := by
  intro hn
  obtain rfl : w = .w8 := by cases w <;> first | rfl | cases hbits
  have hn' : n.val = 4 + m.val := hn
  rw [hrex] at hneeds
  refine absurd (hneeds ?_) Bool.false_ne_true
  simp only [Register.needsExtension, Bool.and_eq_true, decide_eq_true_eq]
  omega

/-- General registers of one width are told apart by their numbers and by whether an extension byte
is there. -/
lemma general_eq {bits : ℕ} {rex : Bool} {r r' : Register}
    (h : OperandType.takesGeneral bits r = true) (h' : OperandType.takesGeneral bits r' = true)
    (hn : r.number = r'.number)
    (hr : (r.isHighByte = true → rex = false) ∧ (r.needsExtension = true → rex = true))
    (hr' : (r'.isHighByte = true → rex = false) ∧ (r'.needsExtension = true → rex = true)) :
    r = r' := by
  simp only [OperandType.takesGeneral, Bool.and_eq_true, beq_iff_eq] at h h'
  have hbits : r.bits = r'.bits := h.2.trans h'.2.symm
  cases r with
  | gp w n =>
    cases r' with
    | gp w' n' =>
      obtain rfl : w = w' := by cases w <;> cases w' <;> first | rfl | cases hbits
      exact congrArg (Register.gp w) (Fin.ext hn)
    | highByte n' => exact absurd hn (number_ne_of_highByte hbits hr.2 (hr'.1 rfl))
    | xmm _ | ymm _ | rip => cases h'.1
  | highByte n =>
    cases r' with
    | gp w n' => exact absurd hn.symm (number_ne_of_highByte hbits.symm hr'.2 (hr.1 rfl))
    | highByte n' => exact congrArg Register.highByte (Fin.ext (Nat.add_left_cancel hn))
    | xmm _ | ymm _ | rip => cases h'.1
  | xmm _ | ymm _ | rip => cases h.1

/-- Registers of one type are told apart by their numbers and by whether an extension byte is
there. -/
lemma register_eq {t : OperandType} {rex : Bool} {r r' : Register}
    (h : t.takes (.reg r) = true) (h' : t.takes (.reg r') = true) (hn : r.number = r'.number)
    (hr : (r.isHighByte = true → rex = false) ∧ (r.needsExtension = true → rex = true))
    (hr' : (r'.isHighByte = true → rex = false) ∧ (r'.needsExtension = true → rex = true)) :
    r = r' := by
  have hvector : ∀ k : VectorKind, r.isOfKind k = true → r'.isOfKind k = true → r = r' := by
    intro k hk hk'
    cases r <;> cases r' <;> cases k <;>
      simp_all [Register.isOfKind, Register.number, Fin.ext_iff]
  cases t with
  | one => simp [OperandType.takes] at h
  | fixed q =>
    simp only [OperandType.takes, beq_iff_eq, Operand.reg.injEq] at h h'
    rw [h, h']
  | gp w => exact general_eq h h' hn hr hr'
  | gpOrMem w => exact general_eq h h' hn hr hr'
  | gpOrNarrow w n => exact general_eq h h' hn hr hr'
  | vector k n => exact hvector k h h'
  | vectorOrMem k n bits => exact hvector k h h'
  | mem bits => cases bits <;> cases h
  | imm w => cases h

/-- Two operands of a type with one reading agree. -/
lemma OperandReading.Recovers.agree {x : OperandReading} {t : OperandType} {rex : Bool}
    {o o' : Operand} (h : x.Recovers t rex o) (h' : x.Recovers t rex o') (ht : t.takes o = true)
    (ht' : t.takes o' = true) : t.Agree o o' := by
  cases x with
  | register n =>
    cases o <;> cases o' <;> simp only [Recovers] at h h'
    exact register_eq ht ht' (h.1.symm.trans h'.1) h.2 h'.2
  | address base index scale disp =>
    cases o <;> cases o' <;> simp only [Recovers] at h h'
    obtain ⟨hb, hi, hd, hs⟩ := h
    obtain ⟨hb', hi', hd', hs'⟩ := h'
    refine ⟨hb.symm.trans hb', hi.symm.trans hi', hd.symm.trans hd', fun hsome => ?_⟩
    rw [← hs hsome, ← hs' (by rw [← hi', hi]; exact hsome)]
  | immediate bits n =>
    cases o <;> cases o' <;> simp only [Recovers] at h h'
    intro w hw
    rw [hw, Option.map_some, Option.some.injEq] at h
    rw [h.1, ← h.2, ← h'.2]
  | implied =>
    simp only [Recovers] at h h'
    obtain rfl := Option.some.inj (h.symm.trans h')
    cases t <;> simp only [OperandType.only?, Option.some.injEq, reduceCtorEq] at h <;> subst h
    · intro w hw
      rfl
    · rfl

/-- Operands that a form encodes to one code agree. -/
lemma agree_of_assemble_eq {f : Form} {ops ops' : List Operand} {c : MachineCode}
    (hf : f.IsReadable) (htakes : List.Forall₂ (fun t o => t.takes o = true) f.types ops)
    (htakes' : List.Forall₂ (fun t o => t.takes o = true) f.types ops')
    (hrip : ∀ a, .mem a ∈ ops → a.index ≠ some .rip)
    (hrip' : ∀ a, .mem a ∈ ops' → a.index ≠ some .rip) (h : f.assemble none ops = .ok c)
    (h' : f.assemble none ops' = .ok c) :
    ∀ q ∈ f.types.zip (ops.zip ops'), q.1.Agree q.2.1 q.2.2 := by
  intro q hq
  obtain ⟨i, hi, rfl⟩ := List.mem_iff_getElem.mp hq
  rw [List.length_zip, List.length_zip] at hi
  have hslots := hf.length_slots
  have hi₁ : i < (f.rows ops).length := by
    rw [Form.rows, List.length_zip, List.length_zip]
    omega
  have hi₂ : i < (f.rows ops').length := by
    rw [Form.rows, List.length_zip, List.length_zip]
    omega
  have hr := operandAt_recovers hf htakes hrip h (List.getElem_mem hi₁)
  have hr' := operandAt_recovers hf htakes' hrip' h' (List.getElem_mem hi₂)
  have ht := Placed.takes_of_mem_rows htakes (List.getElem_mem hi₁)
  have ht' := Placed.takes_of_mem_rows htakes' (List.getElem_mem hi₂)
  simp only [Form.rows, List.getElem_zip] at hr hr' ht ht' ⊢
  exact hr.agree hr' ht ht'

/-- Encoding can be undone: the reader splits the bytes into the fields of the code with nothing
left over, recovers every operand from its place, and operands that the same form encodes to the
same bytes agree. -/
theorem read_encodeFully {mnemonic : String} {ops : List Operand} {e : Encoded}
    (hrip : ∀ a, .mem a ∈ ops → a.index ≠ some .rip)
    (h : encodeFully mnemonic none ops = .ok e) :
    MachineCode.read e.form.opcode.spec e.form.slots e.code.bytes = some e.code ∧
      e.form.types.length = ops.length ∧ e.form.slots.length = ops.length ∧
      (∀ q ∈ e.form.rows ops,
        (e.code.operandAt q.2.1.place).Recovers q.1 e.code.lead.hasRex q.2.2) ∧
      ∀ {mnemonic' : String} {ops' : List Operand} {e' : Encoded},
        (∀ a, .mem a ∈ ops' → a.index ≠ some .rip) → encodeFully mnemonic' none ops' = .ok e' →
        e'.form = e.form → e'.code.bytes = e.code.bytes →
        ops'.length = ops.length ∧
          ∀ q ∈ e.form.types.zip (ops.zip ops'), q.1.Agree q.2.1 q.2.2 := by
  obtain ⟨hlisted, htakes, -, hcode⟩ := encodeFully_spec h
  have hf := hlisted.isReadable
  have hlen := htakes.length_eq
  have hread := MachineCode.read_bytes (assemble_isLaidOut hf hlen hrip hcode)
  refine ⟨hread, hlen, hf.length_slots.trans hlen,
    fun q => operandAt_recovers hf htakes hrip hcode, ?_⟩
  intro mnemonic' ops' e' hrip' h' hform hbytes
  obtain ⟨-, htakes', -, hcode'⟩ := encodeFully_spec h'
  rw [hform] at htakes' hcode'
  -- The reader sees the same bytes, so it splits both into the same fields.
  have hread' := MachineCode.read_bytes (assemble_isLaidOut hf htakes'.length_eq hrip' hcode')
  have heq : e'.code = e.code := by
    rw [hbytes, hread] at hread'
    exact (Option.some.inj hread').symm
  rw [heq] at hcode'
  exact ⟨htakes'.length_eq.symm.trans hlen,
    agree_of_assemble_eq hf htakes htakes' hrip hrip' hcode hcode'⟩

/-- An addition to memory, with a base and an index among the later registers and a displacement of
one byte, is read back. -/
theorem read_encodeFully_of_add :
    let ops : List Operand :=
      [.mem { base := some (.gp .w64 12), index := some (.gp .w64 13), scale := some .four,
              disp := -8, bits := some 64 }, .reg (.gp .w64 9)]
    (∀ a, .mem a ∈ ops → a.index ≠ some .rip) ∧
      ∃ e, encodeFully "add" none ops = .ok e ∧
        MachineCode.read e.form.opcode.spec e.form.slots e.code.bytes = some e.code := by
  intro ops
  have hrip : ∀ a, .mem a ∈ ops → a.index ≠ some .rip := by simp [ops]
  have hok : (encodeFully "add" none ops).isOk = true := by decide
  cases he : encodeFully "add" none ops with
  | error d => rw [he] at hok; cases hok
  | ok e => exact ⟨hrip, e, rfl, (read_encodeFully hrip he).1⟩

end AsmBridge
