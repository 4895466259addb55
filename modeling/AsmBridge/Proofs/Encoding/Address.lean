import AsmBridge.Proofs.Encoding.Reader
import AsmBridge.Proofs.Outcome
import Mathlib.Algebra.Order.Ring.Int
import Mathlib.Data.Nat.Basic

/-!
# Reading the operand field

The operand field of an instruction word gives back the register or the address that was put there:
the numbers of the registers from their low bits and their extension bits, the scale, and the
displacement from its signed bytes. The cases in which the low bits of a base force a second byte or
a displacement of zero are those in which ModR/M would otherwise mean something else.
-/

namespace AsmBridge

/-! ## Signed displacements -/

/-- The signed number whose bytes, lowest first, are these. -/
def signedLittleEndian (bs : List UInt8) : ℤ :=
  (ofLittleEndian bs : ℤ).bmod (256 ^ bs.length)

/-- A signed number that fits a word is the signed value of the word. -/
lemma bmod_wrapped {bits : ℕ} {d : ℤ} (hbits : 0 < bits) (h : fitsSigned bits d = true) :
    ((wrapped bits d : ℕ) : ℤ).bmod (2 ^ bits) = d := by
  have hhalf : 2 ^ bits = 2 * 2 ^ (bits - 1) := by
    rw [← Nat.pow_succ']
    congr 1
    omega
  have hcast : ((wrapped bits d : ℕ) : ℤ) = d % (2 ^ bits : ℕ) :=
    Int.toNat_of_nonneg (Int.emod_nonneg d (by have := Nat.two_pow_pos bits; omega))
  simp only [fitsSigned, Bool.and_eq_true, decide_eq_true_eq] at h
  rw [hcast, Int.emod_bmod]
  exact Int.bmod_eq_of_le_mul_two (by omega) (by omega)

/-- A signed number that fits its bytes is read back. -/
lemma signedLittleEndian_wrapped {n : ℕ} {d : ℤ} (hn : 0 < n)
    (h : fitsSigned (8 * n) d = true) :
    signedLittleEndian (littleEndian n (wrapped (8 * n) d)) = d := by
  have hpow : 256 ^ n = 2 ^ (8 * n) := by rw [Nat.pow_mul]
  rw [signedLittleEndian, ofLittleEndian_littleEndian, length_littleEndian, hpow,
    Nat.mod_eq_of_lt (wrapped_lt _ _)]
  exact bmod_wrapped (by omega) h

/-! ## Register numbers -/

/-- The register number of three low bits and a fourth one. -/
def fourBits (high : Bool) (low : Fin 8) : Fin 16 := ⟨8 * high.toNat + low.val, by
  have := high.toNat_le
  omega⟩

lemma Register.number_lt (r : Register) : r.number < 16 := by
  cases r <;> simp only [Register.number] <;> omega

/-- The low bits and the fourth bit make up the number. -/
lemma fourBits_low (r : Register) : (fourBits r.extended r.low).val = r.number := by
  have hlt := r.number_lt
  by_cases h : 8 ≤ r.number
  · simp only [fourBits, Register.extended, Register.low, h, decide_true, Bool.toNat_true]
    omega
  · simp only [fourBits, Register.extended, Register.low, h, decide_false, Bool.toNat_false]
    omega

/-- A register that takes part in an address is told by its bits. -/
lemma gp_fourBits {r : Register} (h : r.isAddressing = true) :
    Register.gp .w64 (fourBits r.extended r.low) = r := by
  have hnumber := fourBits_low r
  match r, h with
  | .gp .w64 n, _ => exact congrArg (Register.gp .w64) (Fin.ext hnumber)

/-! ## Addresses -/

/-- An operand as its code shows it. -/
inductive OperandReading
  /-- A register by its number. -/
  | register (number : ℕ)
  | address (base index : Option Register) (scale : Fin 4) (disp : ℤ)
  /-- The residue of an immediate in a field of so many bits. -/
  | immediate (bits value : ℕ)
  /-- An operand that the opcode implies. -/
  | implied
deriving DecidableEq

namespace AddressCode

/-- The base that ModR/M or SIB shows. -/
def readBase (c : AddressCode) : Option Register :=
  match c.sib with
  | none =>
    if c.modrm.mode = 0 ∧ c.modrm.rm = ModRM.dispOnly then some .rip
    else some (.gp .w64 (fourBits c.ext.b c.modrm.rm))
  | some s =>
    if c.modrm.mode = 0 ∧ s.base = ModRM.dispOnly then none
    else some (.gp .w64 (fourBits c.ext.b s.base))

/-- The index that SIB shows. -/
def readIndex (c : AddressCode) : Option Register :=
  match c.sib with
  | none => none
  | some s =>
    if s.index = Sib.noIndex ∧ c.ext.x = false then none
    else some (.gp .w64 (fourBits c.ext.x s.index))

/-- The operand that the operand field shows. -/
def reading (c : AddressCode) : OperandReading :=
  if c.modrm.mode = ModRM.direct then .register (fourBits c.ext.b c.modrm.rm)
  else .address c.readBase c.readIndex ((c.sib.map (·.scale)).getD 0) (signedLittleEndian c.disp)

variable {field : RegField} {a : Address} {c : AddressCode}

/-- A displacement of four bytes reads back. -/
lemma disp32_spec {d : ℤ} {bytes : List UInt8} (h : disp32 d = some bytes) :
    bytes.length = 4 ∧ signedLittleEndian bytes = d := by
  unfold disp32 at h
  split_ifs at h with hfits
  obtain rfl := Option.some.inj h
  exact ⟨length_littleEndian _ _, signedLittleEndian_wrapped (by decide) hfits⟩

/-- A displacement behind a base has the size that the mode tells, and reads back. -/
lemma dispField_spec {low : Fin 8} {d : ℤ} {mode : Fin 4} {disp : List UInt8}
    (h : dispField low d = .ok (mode, disp)) :
    mode ≠ ModRM.direct ∧ (mode = 0 → low ≠ ModRM.dispOnly) ∧ signedLittleEndian disp = d ∧
      ∀ m : ModRM, ∀ sib : Option Sib, m.mode = mode → (sib.map (·.base)).getD m.rm = low →
        disp.length = dispSize m sib := by
  unfold dispField at h
  split_ifs at h with hzero hbyte
  · obtain ⟨rfl, hlow⟩ := hzero
    obtain ⟨rfl, rfl⟩ := Prod.mk.inj (Except.ok.inj h)
    refine ⟨by decide, fun _ => hlow, rfl, ?_⟩
    intro m sib hm hbase
    simp [dispSize, hm, hbase, hlow]
  · obtain ⟨rfl, rfl⟩ := Prod.mk.inj (Except.ok.inj h)
    refine ⟨by decide, fun hmode => absurd hmode (by decide), ?_, ?_⟩
    · exact signedLittleEndian_wrapped Nat.one_pos hbyte
    · intro m sib hm _
      simp [dispSize, hm]
  · cases hd : disp32 d with
    | none => rw [hd] at h; cases h
    | some bytes =>
      rw [hd] at h
      obtain ⟨rfl, rfl⟩ := Prod.mk.inj (Except.ok.inj h)
      obtain ⟨hlen, hsigned⟩ := disp32_spec hd
      refine ⟨by decide, fun hmode => absurd hmode (by decide), hsigned, ?_⟩
      intro m sib hm _
      simp [dispSize, hm, hlen]

/-- An address relative to the instruction pointer is read back. -/
lemma ofRip_spec (hbase : a.base = some .rip) (h : ofRip field a = .ok c) :
    c.IsLaidOut ∧ c.reading = .address a.base a.index 0 a.disp ∧ a.index = none := by
  unfold ofRip at h
  split_ifs at h with hindex
  cases hd : disp32 a.disp with
  | none => rw [hd] at h; cases h
  | some bytes =>
    rw [hd] at h
    obtain rfl := Except.ok.inj h
    obtain ⟨hlen, hsigned⟩ := disp32_spec hd
    refine ⟨⟨rfl, by simp [dispSize, hlen]⟩, ?_⟩
    simp only [Option.not_isSome_iff_eq_none] at hindex
    simp [reading, readBase, readIndex, ModRM.direct, hbase, hindex, hsigned]

/-- A register that takes part in an address as an index is read back from SIB, and so is its
absence. -/
lemma readIndex_of_sib {s : Sib} (hsib : c.sib = some s) (hindex : s.index = Sib.indexField a.index)
    (hx : c.ext.x = (a.index.map (·.extended)).getD false)
    (haddressing : ∀ r, a.index = some r → r.isAddressing = true ∧ r ≠ .rsp) :
    c.readIndex = a.index := by
  rw [readIndex, hsib]
  dsimp only
  cases hr : a.index with
  | none =>
    rw [hr] at hindex hx
    exact if_pos ⟨hindex, hx⟩
  | some r =>
    rw [hr] at hindex hx
    obtain ⟨hgp, hrsp⟩ := haddressing r hr
    have hnot : ¬ (r.low = Sib.noIndex ∧ r.extended = false) := by
      rintro ⟨hlow, hext⟩
      apply hrsp
      rw [← gp_fourBits hgp, hlow, hext]
      rfl
    simp only [Sib.indexField, Option.map_some, Option.getD_some] at hindex hx
    rw [hindex, hx, if_neg hnot, gp_fourBits hgp]

/-- An address without a base is read back. -/
lemma ofBaseless_spec (hbase : a.base = none)
    (hindex : ∀ r, a.index = some r → r.isAddressing = true ∧ r ≠ .rsp)
    (h : ofBaseless field a = .ok c) :
    c.IsLaidOut ∧ c.reading = .address a.base a.index (Sib.scaleField a.scale) a.disp := by
  unfold ofBaseless at h
  cases hd : disp32 a.disp with
  | none => rw [hd] at h; cases h
  | some bytes =>
    rw [hd] at h
    obtain ⟨hlen, hsigned⟩ := disp32_spec hd
    have hc := (Except.ok.inj h).symm
    have hread : c.readIndex = a.index :=
      readIndex_of_sib (by rw [hc]) rfl (by rw [hc]) hindex
    subst hc
    refine ⟨⟨rfl, by simp [dispSize, hlen]⟩, ?_⟩
    simp [reading, hread, readBase, ModRM.direct, hbase, hsigned]

/-- An address with a base is read back. -/
lemma ofBased_spec {base : Register} (hbase : a.base = some base)
    (hgp : base.isAddressing = true)
    (hindex : ∀ r, a.index = some r → r.isAddressing = true ∧ r ≠ .rsp)
    (h : ofBased field base a = .ok c) :
    c.IsLaidOut ∧ ∃ scale, c.reading = .address a.base a.index scale a.disp ∧
      (a.index.isSome = true → scale = Sib.scaleField a.scale) := by
  obtain ⟨⟨mode, disp⟩, hd, h⟩ := bind_eq_ok.mp h
  obtain ⟨hdirect, hlow, hsigned, hsize⟩ := dispField_spec hd
  dsimp only at h
  split_ifs at h with hsib
  · -- The base alone, in the operand field of ModR/M.
    simp only [Bool.and_eq_true, Option.isNone_iff_eq_none, bne_iff_ne] at hsib
    obtain rfl := pure_eq_ok.mp h
    refine ⟨⟨?_, hsize _ _ rfl rfl⟩, 0, ?_, ?_⟩
    · simp [ModRM.hasSib, hsib.2]
    · simpa [reading, readBase, readIndex, hdirect, gp_fourBits hgp, hbase, hsib.1, hsigned]
        using fun hmode hbare => absurd hbare (hlow hmode)
    · simp [hsib.1]
  · -- The base in SIB, which the operand field announces.
    have hc := (pure_eq_ok.mp h).symm
    have hread : c.readIndex = a.index :=
      readIndex_of_sib (by rw [hc]) rfl (by rw [hc]) hindex
    subst hc
    refine ⟨⟨?_, hsize _ _ rfl rfl⟩, Sib.scaleField a.scale, ?_, fun _ => rfl⟩
    · simp [ModRM.hasSib, hdirect]
    · simpa [reading, readBase, hread, hdirect, gp_fourBits hgp, hbase, hsigned] using hlow

/-- A register of an address that is encoded takes part in addresses. -/
lemma isAddressing_of_mem {r : Register} (hr : r ∈ a.registers)
    (h : a.wrongRegister? = none) : r.isAddressing = true := by
  have := List.find?_eq_none.mp h r hr
  simpa using this

/-- The code of an address is laid out as its first byte announces, and the address is read back
from it. -/
theorem ofAddress_spec (hrip : a.index ≠ some .rip) (h : ofAddress field a = .ok c) :
    c.IsLaidOut ∧ ∃ scale, c.reading = .address a.base a.index scale a.disp ∧
      (a.index.isSome = true → scale = Sib.scaleField a.scale) := by
  unfold ofAddress at h
  split at h
  · cases h
  · split at h
    · cases h
    · rename_i hwrong
      split_ifs at h with hripBase hstack
      · have hbase : a.base = some .rip := by simpa [Address.ripRelative] using hripBase
        obtain ⟨hlaid, hread, hnone⟩ := ofRip_spec hbase h
        exact ⟨hlaid, 0, hread, by simp [hnone]⟩
      · have hindex : ∀ r, a.index = some r → r.isAddressing = true ∧ r ≠ .rsp := by
          intro r hr
          refine ⟨isAddressing_of_mem ?_ hwrong, fun hrsp => hstack (hrsp ▸ hr)⟩
          have hne : r ≠ .rip := fun hr' => hrip (hr' ▸ hr)
          simp [Address.registers, hr, hne]
        split at h
        · rename_i hbase
          obtain ⟨hlaid, hread⟩ := ofBaseless_spec hbase hindex h
          exact ⟨hlaid, _, hread, fun _ => rfl⟩
        · rename_i base hbase
          refine ofBased_spec hbase (isAddressing_of_mem ?_ hwrong) hindex h
          have hne : base ≠ .rip := by
            rintro rfl
            simp [Address.ripRelative, hbase] at hripBase
          simp [Address.registers, hbase, hne]

/-- The register field is beside every address. -/
lemma ofAddress_field (h : ofAddress field a = .ok c) :
    c.ext.r = field.extended ∧ c.modrm.reg = field.low := by
  unfold ofAddress at h
  split at h
  · cases h
  · split at h
    · cases h
    · split_ifs at h
      · unfold ofRip at h
        split_ifs at h
        split at h
        · obtain rfl := Except.ok.inj h
          exact ⟨rfl, rfl⟩
        · cases h
      · split at h
        · unfold ofBaseless at h
          split at h
          · obtain rfl := Except.ok.inj h
            exact ⟨rfl, rfl⟩
          · cases h
        · obtain ⟨q, -, h⟩ := bind_eq_ok.mp h
          dsimp only at h
          split_ifs at h <;> obtain rfl := pure_eq_ok.mp h <;> exact ⟨rfl, rfl⟩

variable {o : Operand}

/-- The register field is beside every operand. -/
lemma ofOperand_field (h : ofOperand field o = .ok c) :
    c.ext.r = field.extended ∧ c.modrm.reg = field.low := by
  unfold ofOperand at h
  split at h
  · cases h
  · obtain rfl := Except.ok.inj h
    exact ⟨rfl, rfl⟩
  · exact ofAddress_field h
  · cases h
  · cases h

/-- A register in the operand field is read back. -/
lemma ofOperand_reg {r : Register} (h : ofOperand field (.reg r) = .ok c) :
    c.IsLaidOut ∧ c.reading = .register r.number := by
  unfold ofOperand at h
  split at h <;> simp_all only [Operand.reg.injEq, reduceCtorEq]
  obtain rfl := Except.ok.inj h
  exact ⟨⟨rfl, rfl⟩, by simp [reading, fourBits_low]⟩

end AddressCode

end AsmBridge
