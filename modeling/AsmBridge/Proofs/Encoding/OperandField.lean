import AsmBridge.Proofs.Encoding.Displacement
import AsmBridge.Proofs.Encoding.Refusal

/-!
# The operand field of an address

What a caller gets who asks for the operand field of an address beside a register or three bits of
opcode. The address is refused exactly for one of the four reasons of `Address.HasNoField`.
Otherwise the extension bits and the bytes are those of one field that a processor reads as that
number and that address, with the shortest displacement that any field with this base has, and no
other address gives them (`ofValues_isReadBack`).
-/

namespace AsmBridge

/-! ## What a processor reads -/

/-- The number in the register field and the operand in the operand field, where the bytes are those
of one operand field and nothing else. -/
def readOperands (ext : Extension) (bytes : List UInt8) : Option (ℕ × OperandReading) :=
  match readAddress ext bytes with
  | some (c, []) => some (fourBits ext.r c.modrm.reg, c.reading)
  | _ => none

/-- The operand is read relative to the instruction pointer. -/
def OperandReading.IsRipRelative : OperandReading → Prop
  | .address base _ _ _ => base = some .rip
  | _ => False

namespace RegField

/-- What a caller offers for the register field. -/
def value : RegField → FieldValue
  | .register r => .operand (.reg r)
  | .extension n => .number n.val

/-- The number that the register field and its extension bit stand for. -/
def number : RegField → ℕ
  | .register r => r.number
  | .extension n => n.val

lemma ofValue_value (field : RegField) : ofValue field.value = .ok field := by
  cases field with
  | register r => rfl
  | extension n =>
    have hlt : (0 : ℤ) ≤ n.val ∧ (n.val : ℤ) < 8 := by omega
    simp [value, ofValue, hlt]

lemma fourBits_field (field : RegField) :
    (fourBits field.extended field.low).val = field.number := by
  cases field with
  | register r => exact fourBits_low r
  | extension n => simp [extended, low, number, fourBits]

end RegField

namespace Address

/-- There is no operand field for the address: it is that of a datum, it takes a register that is no
64-bit general-purpose register, its index is the stack pointer, or its displacement exceeds a
signed word of 32 bits. -/
def HasNoField (a : Address) : Prop :=
  a.symbol.isSome = true ∨
    (∃ r ∈ a.base.toList ++ a.index.toList, r.isAddressing = false) ∨
    a.index = some .rsp ∨ fitsSigned 32 a.disp = false

instance : DecidablePred HasNoField := fun a =>
  inferInstanceAs (Decidable (a.symbol.isSome = true ∨
    (∃ r ∈ a.base.toList ++ a.index.toList, r.isAddressing = false) ∨
    a.index = some .rsp ∨ fitsSigned 32 a.disp = false))

/-- The factor of the index; one if none is named. -/
def factor (a : Address) : ℕ := (a.scale.getD .one).factor

lemma two_pow_scaleField (a : Address) : 2 ^ (Sib.scaleField a.scale).val = a.factor := by
  rw [Sib.scaleField, factor]
  cases a.scale with
  | none => rfl
  | some s => exact s.two_pow_code

/-- A register that keeps an address from having a field is one that takes no part in addresses. -/
lemma wrongRegister?_eq_none {a : Address} (hbase : a.base ≠ some .rip)
    (hindex : a.index ≠ some .rip) : a.wrongRegister? = none ↔
      ¬ ∃ r ∈ a.base.toList ++ a.index.toList, r.isAddressing = false := by
  have hregisters : a.registers = a.base.toList ++ a.index.toList := by
    cases hb : a.base <;> cases hi : a.index <;> simp_all [registers, Option.filter]
  rw [wrongRegister?, hregisters, List.find?_eq_none]
  simp only [Bool.not_eq_true', not_exists, not_and]

end Address

namespace AddressCode

/-- No field in which a base and a displacement are read as in this one has a shorter
displacement. -/
def IsShortest (c : AddressCode) : Prop :=
  ∀ ext bytes, ∀ c' : AddressCode, readAddress ext bytes = some (c', []) →
    c'.modrm.mode ≠ ModRM.direct → c'.readBase = c.readBase →
    signedLittleEndian c'.disp = signedLittleEndian c.disp → c.disp.length ≤ c'.disp.length

variable {field : RegField} {a : Address} {c : AddressCode}

/-! ## When there is a field -/

lemma exists_disp32_iff (d : ℤ) : (∃ bytes, disp32 d = some bytes) ↔ fitsSigned 32 d = true := by
  unfold disp32
  split_ifs with h <;> simp [h]

/-- The displacements behind a base are those of four bytes, whatever the base. -/
lemma exists_dispField_iff (low : Fin 8) (d : ℤ) :
    (∃ p, dispField low d = .ok p) ↔ fitsSigned 32 d = true := by
  refine ⟨?_, exists_dispField low⟩
  rintro ⟨p, hp⟩
  unfold dispField at hp
  split_ifs at hp with hzero hbyte
  · rw [hzero.1]
    decide
  · simp only [fitsSigned, Bool.and_eq_true, decide_eq_true_eq] at hbyte ⊢
    omega
  · split at hp
    · rename_i bytes hbytes
      exact (exists_disp32_iff d).mp ⟨bytes, hbytes⟩
    · cases hp

/-- Without a base the displacement is all that can keep an address from having a field. -/
lemma exists_ofBaseless_iff : (∃ c, ofBaseless field a = .ok c) ↔ fitsSigned 32 a.disp = true := by
  rw [← exists_disp32_iff]
  unfold ofBaseless
  split <;> simp_all

/-- With a base, too, the displacement is all that can keep an address from having a field. -/
lemma exists_ofBased_iff (b : Register) :
    (∃ c, ofBased field b a = .ok c) ↔ fitsSigned 32 a.disp = true := by
  rw [← exists_dispField_iff b.low]
  unfold ofBased
  constructor
  · rintro ⟨c, hc⟩
    obtain ⟨p, hp, -⟩ := bind_eq_ok.mp hc
    exact ⟨p, hp⟩
  · rintro ⟨p, hp⟩
    rw [hp]
    dsimp only [bind, Except.bind]
    split
    · exact ⟨_, rfl⟩
    · exact ⟨_, rfl⟩

/-- An address that is not relative to the instruction pointer has a field unless it is one of those
without one. -/
lemma exists_ofAddress_iff (hbase : a.base ≠ some .rip) (hindex : a.index ≠ some .rip) :
    (∃ c, ofAddress field a = .ok c) ↔ ¬ a.HasNoField := by
  have hrelative : a.ripRelative = false := by simpa [Address.ripRelative] using hbase
  have hregisters := Address.wrongRegister?_eq_none hbase hindex
  unfold ofAddress Address.HasNoField
  rw [hrelative]
  cases hsymbol : a.symbol with
  | some name => simp
  | none =>
    cases hwrong : a.wrongRegister? with
    | some r =>
      have hsome : ∃ r ∈ a.base.toList ++ a.index.toList, r.isAddressing = false := by
        by_contra hno
        exact absurd (hwrong.symm.trans (hregisters.mpr hno)) (Option.some_ne_none r)
      constructor
      · rintro ⟨c, ⟨⟩⟩
      · intro h
        exact absurd (.inr (.inl hsome)) h
    | none =>
      have hnone := hregisters.mp hwrong
      by_cases hstack : a.index = some .rsp
      · simp [hstack]
      · simp only [Bool.false_eq_true, if_false, hstack, hnone, Option.isSome_none, false_or,
          Bool.not_eq_false]
        split
        · exact exists_ofBaseless_iff
        · exact exists_ofBased_iff _

/-! ## The field that there is -/

/-- What a field is read as, part by part. -/
lemma reading_eq_address {base index : Option Register} {scale : Fin 4} {d : ℤ} :
    c.reading = .address base index scale d ↔
      c.modrm.mode ≠ ModRM.direct ∧ c.readBase = base ∧ c.readIndex = index ∧
        (c.sib.map (·.scale)).getD 0 = scale ∧ signedLittleEndian c.disp = d := by
  unfold reading
  split_ifs with h
  · simp [h]
  · simp [h]

/-- What is read has the parts that its first byte announces. -/
lemma isLaidOut_of_readAddress {ext : Extension} {bytes rest : List UInt8}
    (h : readAddress ext bytes = some (c, rest)) : c.IsLaidOut := by
  have hdisp : ∀ (m : ModRM) (sib : Option Sib) (bs : List UInt8), sib.isSome = m.hasSib →
      readDisp ext m sib bs = some (c, rest) → c.IsLaidOut := by
    intro m sib bs hsib h
    unfold readDisp at h
    dsimp only at h
    split_ifs at h with hlen
    obtain ⟨rfl, -⟩ := Prod.mk.inj (Option.some.inj h)
    exact ⟨hsib, List.length_take_of_le hlen⟩
  unfold readAddress at h
  split at h
  · cases h
  · dsimp only at h
    split_ifs at h with hsib
    · split at h
      · cases h
      · exact hdisp _ (some _) _ hsib.symm h
    · exact hdisp _ none _ (by simpa using hsib) h

/-- A displacement has no byte, one or four. -/
lemma IsLaidOut.length_mem (h : c.IsLaidOut) : c.disp.length ∈ [0, 1, 4] := by
  rw [h.disp_length]
  unfold dispSize
  split
  · split <;> simp
  all_goals simp

/-- Without a base there are four bytes of displacement. -/
lemma IsLaidOut.length_of_baseless (h : c.IsLaidOut) (hbase : c.readBase = none) :
    c.disp.length = 4 := by
  rw [h.disp_length]
  unfold readBase at hbase
  split at hbase
  · split_ifs at hbase
  · rename_i s hs
    split_ifs at hbase with hbare
    simp [dispSize, hs, hbare]

/-- A base that is read has the low bits that stand for it. -/
lemma low_of_readBase {b : Register} (hgp : b.isAddressing = true) (h : c.readBase = some b) :
    b.low = (c.sib.map (·.base)).getD c.modrm.rm := by
  have hlow : ∀ (high : Bool) (low : Fin 8), (Register.gp .w64 (fourBits high low)).low = low := by
    decide
  unfold readBase at h
  split at h
  · rename_i hsib
    split_ifs at h
    · obtain rfl := Option.some.inj h
      cases hgp
    · obtain rfl := Option.some.inj h
      rw [hsib, hlow]
      rfl
  · rename_i s hsib
    split_ifs at h
    obtain rfl := Option.some.inj h
    rw [hsib, hlow]
    rfl

/-- A base whose low bits are those of a bare displacement is read with a displacement. -/
lemma IsLaidOut.length_pos (h : c.IsLaidOut) (hmode : c.modrm.mode ≠ ModRM.direct)
    {b : Register} (hgp : b.isAddressing = true) (hbase : c.readBase = some b)
    (hlow : b.low = ModRM.dispOnly) : 0 < c.disp.length := by
  rw [h.disp_length, dispSize, ← low_of_readBase hgp hbase, hlow]
  split
  · simp
  · simp
  · simp
  · rename_i hdirect
    exact absurd hdirect hmode

/-- One byte is read as a signed word of eight bits. -/
lemma fitsSigned_of_length_eq_one {bs : List UInt8} (h : bs.length = 1) :
    fitsSigned 8 (signedLittleEndian bs) = true := by
  rw [signedLittleEndian, h]
  have hlower := Int.le_bmod (x := (ofLittleEndian bs : ℤ)) (show 0 < 256 ^ 1 by decide)
  have hupper := Int.bmod_lt (x := (ofLittleEndian bs : ℤ)) (show 0 < 256 ^ 1 by decide)
  simp only [fitsSigned, Bool.and_eq_true, decide_eq_true_eq]
  omega

/-- A displacement behind a base is left out or has one byte where it can. -/
lemma length_dispField {low : Fin 8} {d : ℤ} {mode : Fin 4} {disp : List UInt8}
    (h : dispField low d = .ok (mode, disp)) :
    (d = 0 → low ≠ ModRM.dispOnly → disp.length = 0) ∧
      (fitsSigned 8 d = true → disp.length ≤ 1) := by
  unfold dispField at h
  split_ifs at h with hzero hbyte
  · obtain ⟨-, rfl⟩ := Prod.mk.inj (Except.ok.inj h)
    simp
  · obtain ⟨-, rfl⟩ := Prod.mk.inj (Except.ok.inj h)
    refine ⟨fun hd hlow => absurd ⟨hd, hlow⟩ hzero, fun _ => ?_⟩
    rw [length_littleEndian]
  · refine ⟨fun hd hlow => absurd ⟨hd, hlow⟩ hzero, fun hd => absurd hd hbyte⟩

/-- The displacement of an address with a base is left out or has one byte where it can. -/
lemma length_ofBased {b : Register} (h : ofBased field b a = .ok c) :
    (a.disp = 0 → b.low ≠ ModRM.dispOnly → c.disp.length = 0) ∧
      (fitsSigned 8 a.disp = true → c.disp.length ≤ 1) := by
  obtain ⟨⟨mode, disp⟩, hdisp, h⟩ := bind_eq_ok.mp h
  have hlength := length_dispField hdisp
  dsimp only at h
  split_ifs at h
  · obtain rfl := pure_eq_ok.mp h
    exact hlength
  · obtain rfl := pure_eq_ok.mp h
    exact hlength

/-- An address with a base other than the instruction pointer has the field of its base. -/
lemma ofBased_of_ofAddress {b : Register} (hbase : a.base = some b) (hrip : b ≠ .rip)
    (h : ofAddress field a = .ok c) : b.isAddressing = true ∧ ofBased field b a = .ok c := by
  have hrelative : a.ripRelative = false := by simpa [Address.ripRelative, hbase] using hrip
  have hmem : b ∈ a.registers := by simp [Address.registers, hbase, hrip]
  unfold ofAddress at h
  rw [hrelative, hbase] at h
  split at h
  · cases h
  · split at h
    · cases h
    · rename_i hwrong
      rw [if_neg Bool.false_ne_true] at h
      split_ifs at h
      exact ⟨isAddressing_of_mem hmem hwrong, h⟩

/-- The displacement of an address is in the shortest field. -/
lemma isShortest_ofAddress (hbase : a.base ≠ some .rip) (hindex : a.index ≠ some .rip)
    (h : ofAddress field a = .ok c) : c.IsShortest := by
  obtain ⟨hlaid, scale, hread, -⟩ := ofAddress_spec hindex h
  obtain ⟨-, hreadBase, -, -, hdisp⟩ := reading_eq_address.mp hread
  intro ext bytes c' hread' hmode' hbase' hdisp'
  have hlaid' := isLaidOut_of_readAddress hread'
  have hsize := hlaid.length_mem
  have hsize' := hlaid'.length_mem
  rw [hreadBase] at hbase'
  rw [hdisp] at hdisp'
  simp only [List.mem_cons, List.not_mem_nil, or_false] at hsize hsize'
  cases hb : a.base with
  | none =>
    rw [hb] at hbase'
    have hfour := hlaid'.length_of_baseless hbase'
    omega
  | some b =>
    rw [hb] at hbase' hbase
    obtain ⟨hgp, hbased⟩ := ofBased_of_ofAddress hb (fun hrip => hbase (hrip ▸ rfl)) h
    obtain ⟨hnone, hone⟩ := length_ofBased hbased
    rcases hsize' with hlen | hlen | hlen
    · -- Nothing is read as zero, behind a base that does not ask for a displacement.
      have hzero : a.disp = 0 := by
        rw [← hdisp', List.length_eq_zero_iff.mp hlen]
        rfl
      have hlow : b.low ≠ ModRM.dispOnly := fun hlow => by
        have hpos := hlaid'.length_pos hmode' hgp hbase' hlow
        omega
      exact (hnone hzero hlow).trans_le (Nat.zero_le _)
    · rw [hlen]
      exact hone (hdisp' ▸ fitsSigned_of_length_eq_one hlen)
    · omega

/-- The bytes of a field are read as the number beside the address and what the field shows. -/
lemma readOperands_bytes (hlaid : c.IsLaidOut) (h : ofAddress field a = .ok c) :
    readOperands c.ext c.bytes = some (field.number, c.reading) := by
  obtain ⟨hext, hreg⟩ := ofAddress_field h
  have hbytes := readAddress_bytes hlaid []
  rw [List.append_nil] at hbytes
  rw [readOperands, hbytes]
  dsimp only
  rw [hext, hreg, field.fourBits_field]

/-- The field is read as the number beside the address and the address. -/
lemma readOperands_ofAddress (hindex : a.index ≠ some .rip) (h : ofAddress field a = .ok c) :
    ∃ scale, readOperands c.ext c.bytes =
        some (field.number, .address a.base a.index scale a.disp) ∧
      (a.index.isSome = true → 2 ^ scale.val = a.factor) := by
  obtain ⟨hlaid, scale, hread, hscale⟩ := ofAddress_spec hindex h
  refine ⟨scale, ?_, fun hsome => hscale hsome ▸ a.two_pow_scaleField⟩
  rw [readOperands_bytes hlaid h, hread]

/-! ## The field for what a caller offers -/

lemma ofValues_eq (field : RegField) (a : Address) :
    ofValues field.value (.operand (.mem a)) = ofAddress field a := by
  rw [ofValues, field.ofValue_value]
  rfl

/-- An operand field is the one of an address beside a register field: read as them with nothing
left over, with the shortest displacement, and the field of no other address. -/
structure IsReadBack (field : RegField) (a : Address) (c : AddressCode) : Prop where
  /-- The reading is the number and the address. -/
  reads : ∃ scale, readOperands c.ext c.bytes =
      some (field.number, .address a.base a.index scale a.disp) ∧
    (a.index.isSome = true → 2 ^ scale.val = a.factor)
  length_mem : c.disp.length ∈ [0, 1, 4]
  isShortest : c.IsShortest
  not_isRipRelative : ∀ r ∈ readOperands c.ext c.bytes, ¬ r.2.IsRipRelative
  /-- The extension bits and the bytes tell the address. -/
  injective : ∀ b d, b.base ≠ some .rip → b.index ≠ some .rip →
    ofValues field.value (.operand (.mem b)) = .ok d → d.ext = c.ext → d.bytes = c.bytes →
      b.base = a.base ∧ b.index = a.index ∧ b.disp = a.disp ∧
        (a.index.isSome = true → b.factor = a.factor)

/-- A field that is there is read back. -/
lemma isReadBack_ofValues (hbase : a.base ≠ some .rip) (hindex : a.index ≠ some .rip)
    (h : ofValues field.value (.operand (.mem a)) = .ok c) : c.IsReadBack field a := by
  rw [ofValues_eq] at h
  obtain ⟨hlaid, -⟩ := ofAddress_spec hindex h
  obtain ⟨scale, hread, hscale⟩ := readOperands_ofAddress hindex h
  refine ⟨⟨scale, hread, hscale⟩, hlaid.length_mem, isShortest_ofAddress hbase hindex h, ?_, ?_⟩
  · intro r hr
    rw [hread] at hr
    obtain rfl := Option.some.inj hr
    exact hbase
  · intro b d hbase' hindex' h' hext hbytes
    rw [ofValues_eq] at h'
    obtain ⟨scale', hread', hscale'⟩ := readOperands_ofAddress hindex' h'
    rw [hext, hbytes, hread] at hread'
    simp only [Option.some.injEq, Prod.mk.injEq, OperandReading.address.injEq, true_and] at hread'
    obtain ⟨hb, hi, hs, hd⟩ := hread'
    refine ⟨hb.symm, hi.symm, hd.symm, fun hsome => ?_⟩
    rw [← hscale hsome, ← hscale' (hi ▸ hsome), hs]

/-- An address relative to the instruction pointer has a field if its displacement fits four bytes,
and is read relative to it. -/
lemma ofValues_ofRip (hbase : a.base = some .rip) (hindex : a.index = none) :
    ((∃ c, ofValues field.value (.operand (.mem a)) = .ok c) ↔
        a.symbol = none ∧ fitsSigned 32 a.disp = true) ∧
      ∀ c, ofValues field.value (.operand (.mem a)) = .ok c →
        readOperands c.ext c.bytes = some (field.number, .address (some .rip) none 0 a.disp) := by
  have hrelative : a.ripRelative = true := by simp [Address.ripRelative, hbase]
  have hwrong : a.wrongRegister? = none := by
    simp [Address.wrongRegister?, Address.registers, hbase, hindex]
  have hpath : a.symbol = none → ofAddress field a = ofRip field a := by
    intro hsymbol
    simp [ofAddress, hsymbol, hwrong, hrelative]
  have hfits : (∃ c, ofRip field a = .ok c) ↔ fitsSigned 32 a.disp = true := by
    rw [← exists_disp32_iff]
    unfold ofRip
    rw [hindex, if_neg (by decide)]
    split <;> simp_all
  have hnone : ∀ c, ofAddress field a = .ok c → a.symbol = none := by
    intro c h
    cases hsymbol : a.symbol with
    | none => rfl
    | some name => simp [ofAddress, hsymbol] at h
  rw [ofValues_eq]
  refine ⟨⟨?_, ?_⟩, ?_⟩
  · rintro ⟨c, h⟩
    have hsymbol := hnone c h
    exact ⟨hsymbol, hfits.mp ⟨c, hpath hsymbol ▸ h⟩⟩
  · rintro ⟨hsymbol, h⟩
    rw [hpath hsymbol]
    exact hfits.mpr h
  · intro c h
    obtain ⟨hlaid, hread, -⟩ := ofRip_spec hbase (hpath (hnone c h) ▸ h)
    rw [readOperands_bytes hlaid h, hread, hbase, hindex]

/-- An address without the instruction pointer has an operand field beside a register or three bits
of opcode unless it is one of those that have none, which are refused; and the field is read back
as the two, in the shortest way and as no other address. With the instruction pointer for its base
and no index an address is read relative to it. -/
theorem ofValues_isReadBack (field : RegField) {a : Address} (hbase : a.base ≠ some .rip)
    (hindex : a.index ≠ some .rip) :
    (a.HasNoField →
        ∃ e, ofValues field.value (.operand (.mem a)) = .error e ∧ e.isRefusal = true) ∧
      (¬ a.HasNoField →
        ∃ c, ofValues field.value (.operand (.mem a)) = .ok c ∧ c.IsReadBack field a) ∧
      ∀ r : Address, r.base = some .rip → r.index = none →
        ((∃ c, ofValues field.value (.operand (.mem r)) = .ok c) ↔
            r.symbol = none ∧ fitsSigned 32 r.disp = true) ∧
          ∀ c, ofValues field.value (.operand (.mem r)) = .ok c →
            readOperands c.ext c.bytes =
              some (field.number, .address (some .rip) none 0 r.disp) := by
  have hfield : (∃ c, ofAddress field a = .ok c) ↔ ¬ a.HasNoField :=
    exists_ofAddress_iff hbase hindex
  have hrelative : a.ripRelative = false := by simpa [Address.ripRelative] using hbase
  have hrefused : FailsWith IsRefused (ofAddress field a) :=
    failsWith_ofOperand (o := .mem a) (by rintro b ⟨⟩; exact hrelative) field
  refine ⟨fun hno => ?_, fun hno => ?_, fun r hrip hnone => ofValues_ofRip hrip hnone⟩
  · rw [ofValues_eq]
    cases h : ofAddress field a with
    | error e => exact ⟨e, rfl, hrefused e h⟩
    | ok c => exact absurd hno (hfield.mp ⟨c, h⟩)
  · obtain ⟨c, h⟩ := hfield.mpr hno
    rw [← ofValues_eq] at h
    exact ⟨c, h, isReadBack_ofValues hbase hindex h⟩

/-- The byte below `r12` beside `rcx`, with nothing in SIB for an index. -/
theorem ofValues_isReadBack_of_stackBase :
    ∃ c, AddressCode.ofValues (RegField.register .rcx).value
        (.operand (.mem { base := some (.gp .w64 12), disp := -1 })) = .ok c ∧
      c.IsReadBack (.register .rcx) { base := some (.gp .w64 12), disp := -1 } :=
  (ofValues_isReadBack (.register .rcx) (by decide) (by decide)).2.1 (by decide)

end AddressCode

end AsmBridge
