import AsmBridge.Abi.Frame
import AsmBridge.Proofs.Outcome
import Mathlib.Data.Nat.Basic
import Mathlib.Tactic.Common
import Mathlib.Tactic.Linarith
import Mathlib.Tactic.Ring

/-!
# The arithmetic of frames

A planned frame is a whole number of units of its alignment, large enough for its parts and for the
slack that rounding its base down may cost. `FrameLayout.base` is the address that the lines of the
frame compute from the stack pointer; `FrameLayout.base_spec` places it, for every residue of the
stack pointer, between the room that the body uses below it and the words of the spilled arguments
above it.
-/

namespace AsmBridge

/-- Clearing low bits rounds down to a multiple of a power of two. -/
lemma toNat_and_neg_twoPow (x : BitVec 64) (k : ℕ) :
    (x &&& BitVec.ofInt 64 (-(2 ^ k))).toNat = x.toNat / 2 ^ k * 2 ^ k := by
  have hpow : BitVec.ofInt 64 (2 ^ k) = BitVec.twoPow 64 k := by
    have hcast : (2 : ℤ) ^ k = ((2 ^ k : ℕ) : ℤ) := by push_cast; rfl
    apply BitVec.eq_of_toNat_eq
    rw [hcast, BitVec.ofInt_natCast, BitVec.toNat_ofNat, BitVec.toNat_twoPow]
  have hmask : BitVec.ofInt 64 (-(2 ^ k)) = BitVec.allOnes 64 <<< k := by
    rw [BitVec.shiftLeft_eq_mul_twoPow, ← BitVec.neg_one_eq_allOnes, BitVec.neg_mul, hpow.symm,
      BitVec.one_mul, BitVec.ofInt_neg]
  have hshift : x &&& BitVec.allOnes 64 <<< k = (x >>> k) <<< k := by
    ext i hi
    by_cases hik : i < k
    · simp [hik]
    · have hsum : k + (i - k) = i := by omega
      simp [-BitVec.reduceAllOnes, hik, hsum, BitVec.getLsbD_eq_getElem hi]
  have hle : x.toNat / 2 ^ k * 2 ^ k ≤ x.toNat := Nat.div_mul_le_self _ _
  rw [hmask, hshift, BitVec.toNat_shiftLeft, BitVec.toNat_ushiftRight, Nat.shiftRight_eq_div_pow,
    Nat.shiftLeft_eq, Nat.mod_eq_of_lt (hle.trans_lt x.isLt)]

namespace FrameLayout

/-- What every planned layout satisfies. -/
structure IsPlanned (l : FrameLayout) : Prop where
  locals_nonneg : 0 ≤ l.locals
  locals_dvd : 8 ∣ l.locals
  spills_nonneg : 0 ≤ l.spills
  pushes_nonneg : 0 ≤ l.pushes
  callReserve_nonneg : 0 ≤ l.callReserve
  align_ge : 16 ≤ l.align
  realign_nonneg : 0 ≤ l.realign
  spills_of_unframed : l.framed = false → l.spills = 0

/-- The room below the frame base that the body may use: its locals and pushes, what its calls
need, and what a realignment of the stack pointer costs. -/
def room (l : FrameLayout) : ℤ := l.locals + 8 * l.pushes + l.callReserve + l.realignPad

/-- The frame base for a stack pointer. -/
def base (l : FrameLayout) (sp : BitVec 64) : BitVec 64 :=
  (sp + BitVec.ofInt 64 l.baseOffset) &&& BitVec.ofInt 64 (-l.align)

variable {l : FrameLayout}

/-- The size of a frame is a multiple of its alignment. -/
lemma align_dvd_size (l : FrameLayout) : l.align ∣ l.size := by
  unfold size
  split
  · exact Dvd.intro_left _ rfl
  · exact dvd_zero _

/-- The size of a frame covers its parts. -/
lemma rawSize_le_size (ha : 0 < l.align) (hf : l.framed = true) : l.rawSize ≤ l.size := by
  have hrem := Int.emod_lt_of_pos (l.rawSize + l.align - 1) ha
  have hdiv := Int.emod_add_mul_ediv (l.rawSize + l.align - 1) l.align
  rw [mul_comm] at hdiv
  rw [size, if_pos hf, Int.fdiv_eq_ediv_of_nonneg _ ha.le]
  omega

/-- The room of a planned frame, up to the slack, is not negative. -/
lemma IsPlanned.room_ge (h : l.IsPlanned) : -7 ≤ l.room := by
  obtain ⟨hlocals, -, -, hpushes, hreserve, -, hrealign, -⟩ := h
  unfold room realignPad
  split <;> omega

/-- The offset of the base leaves the room and what rounding may drop. -/
lemma room_le_baseOffset (ha : 0 < l.align) (hf : l.framed = true) :
    l.room + (l.align - 8) ≤ l.baseOffset := by
  have hraw := rawSize_le_size ha hf
  unfold rawSize at hraw
  unfold room baseOffset
  omega

/-- The alignment of a planned frame is positive. -/
lemma IsPlanned.align_pos (h : l.IsPlanned) : 0 < l.align := by
  have := h.align_ge
  omega

/-- The base for a stack pointer is the largest multiple of the alignment that is not above the
offset of the base. -/
def baseAt (l : FrameLayout) (sp : ℤ) : ℤ := (sp + l.baseOffset) / l.align * l.align

/-- The base has below it the room that the layout counts for the body. -/
lemma room_le_baseAt {sp : ℤ} (hpos : 0 < l.align) (halign : 8 ∣ l.align) (hf : l.framed = true)
    (hsp : 8 ∣ sp) : sp + l.room ≤ l.baseAt sp := by
  have hslack := room_le_baseOffset hpos hf
  have hoffset : 8 ∣ l.baseOffset := by
    have hsize := halign.trans l.align_dvd_size
    unfold baseOffset
    omega
  -- Both the stack pointer and the offset are multiples of eight, and so is what rounding drops.
  have hlt := Int.emod_lt_of_pos (sp + l.baseOffset) hpos
  have hdrop : 8 ∣ (sp + l.baseOffset) % l.align := by
    rw [Int.emod_def]
    exact Int.dvd_sub (Int.dvd_add hsp hoffset) (Dvd.dvd.mul_right halign _)
  have hsplit := Int.emod_add_mul_ediv (sp + l.baseOffset) l.align
  rw [mul_comm] at hsplit
  unfold baseAt
  omega

/-- Of the multiples of the alignment that are not above the offset of the base, the base is the
largest. -/
lemma isGreatest_baseAt (hpos : 0 < l.align) (sp : ℤ) :
    IsGreatest {b | l.align ∣ b ∧ b ≤ sp + l.baseOffset} (l.baseAt sp) := by
  refine ⟨⟨Dvd.intro_left _ rfl, Int.ediv_mul_le _ hpos.ne'⟩, ?_⟩
  rintro _ ⟨⟨q, rfl⟩, hle⟩
  have hquot : q ≤ (sp + l.baseOffset) / l.align := by
    rw [Int.le_ediv_iff_mul_le hpos, mul_comm]
    exact hle
  rw [baseAt, mul_comm]
  exact mul_le_mul_of_nonneg_right hquot hpos.le

/-- The base is not above its offset. -/
lemma IsPlanned.baseAt_le {sp : ℤ} (h : l.IsPlanned) : l.baseAt sp ≤ sp + l.baseOffset :=
  (isGreatest_baseAt h.align_pos sp).1.2

/-- The lines of a frame compute the base. -/
lemma toNat_base {k : ℕ} {sp : BitVec 64} (h : l.IsPlanned) (hk : l.align = 2 ^ k)
    (hf : l.framed = true) (hwrap : sp.toNat + l.size ≤ 2 ^ 64) :
    ((l.base sp).toNat : ℤ) = l.baseAt sp.toNat := by
  have hroom := h.room_ge
  have hslack := room_le_baseOffset h.align_pos hf
  have halign := h.align_ge
  have hspills := h.spills_nonneg
  obtain ⟨off, hoff⟩ : ∃ off : ℕ, l.baseOffset = off := Int.eq_ofNat_of_zero_le (by omega)
  have hsize : (off : ℤ) ≤ l.size - 16 := by
    rw [← hoff, baseOffset]
    omega
  have hsum : (sp + BitVec.ofInt 64 l.baseOffset).toNat = sp.toNat + off := by
    rw [hoff, BitVec.ofInt_natCast, BitVec.toNat_add, BitVec.toNat_ofNat]
    omega
  rw [base, baseAt, hk, toNat_and_neg_twoPow, hsum, hoff]
  push_cast
  rfl

/-- The frame base of a planned frame is aligned, has its room below it and the saved stack pointer,
the return address and the spilled arguments above it, all inside the frame. -/
theorem base_spec {k : ℕ} {sp : BitVec 64} (h : l.IsPlanned) (hk : l.align = 2 ^ k)
    (hf : l.framed = true) (hsp : 8 ∣ sp.toNat) (hwrap : sp.toNat + l.size ≤ 2 ^ 64) :
    l.align ∣ (l.base sp).toNat ∧ sp.toNat ≤ (l.base sp).toNat ∧
      sp.toNat + l.room ≤ (l.base sp).toNat ∧
      (l.base sp).toNat + 16 + 8 * l.spills ≤ sp.toNat + l.size := by
  have height : 8 ∣ l.align := by
    have hk3 : 3 ≤ k := by
      by_contra hlt
      have hpow : (2 : ℤ) ^ k ≤ 2 ^ 2 := pow_le_pow_right₀ (by norm_num) (by omega)
      have halign := h.align_ge
      omega
    rw [hk]
    exact pow_dvd_pow 2 hk3
  have hroom := room_le_baseAt h.align_pos height hf (Int.natCast_dvd_natCast.mpr hsp)
  have htop : l.baseAt sp.toNat ≤ sp.toNat + l.baseOffset := h.baseAt_le
  have hdvd : l.align ∣ l.baseAt sp.toNat := Dvd.intro_left _ rfl
  have hge := h.room_ge
  have hdvd8 := height.trans hdvd
  rw [← toNat_base h hk hf hwrap] at hroom htop hdvd hdvd8
  unfold baseOffset at htop
  refine ⟨hdvd, ?_, hroom, ?_⟩ <;> omega

end FrameLayout

/-! ## Planned layouts -/

/-- The alignment of the frame base never decreases. -/
lemma noteAlignment_ge {f : SourceFunction} {align align' : ℤ} {p : Instruction × Address}
    (h : noteAlignment f align p = .ok align') : align ≤ align' := by
  unfold noteAlignment at h
  dsimp only at h
  split_ifs at h with h₁ h₂
  · exact (Except.ok.inj h).le
  · have heq := Except.ok.inj h
    omega

namespace SourceFunction

variable {f : SourceFunction}

/-- The alignment that the accesses to the stack require is at least 16. -/
lemma stackAlignment_ge {align : ℤ} (h : f.stackAlignment = .ok align) : 16 ≤ align := by
  have hstep : ∀ (a : ℤ) p b, noteAlignment f a p = .ok b → 16 ≤ a → 16 ≤ b :=
    fun a p b hab ha => ha.trans (noteAlignment_ge hab)
  exact foldlM_induction (16 ≤ ·) hstep h le_rfl

/-- What planning a frame yields, field by field. -/
lemma planFrame_eq {slots : List ArgSlot} {reserve : ℕ} {l : FrameLayout}
    (h : f.planFrame slots reserve = .ok l) :
    8 ∣ f.locals ∧ ∃ align, f.stackAlignment = .ok align ∧
      l = { locals := f.locals
            spills := slots.countP (·.register?.isNone)
            pushes := f.instructions.countP fun i => i.mnemonic == "push"
            callReserve := reserve
            align := max align f.realign
            realign := f.realign
            framed := f.needsFrame (slots.countP (·.register?.isNone)) reserve } := by
  unfold planFrame at h
  dsimp only at h
  split at h
  · cases h
  · split_ifs at h with hlocals
    · cases h
    · obtain ⟨align, halign, h⟩ := bind_eq_ok.mp h
      split_ifs at h
      rw [pure_eq_ok] at h
      refine ⟨?_, align, halign, h.symm⟩
      simpa [Nat.dvd_iff_mod_eq_zero] using hlocals

/-- A planned layout satisfies what a frame relies on. -/
theorem planFrame_isPlanned {slots : List ArgSlot} {reserve : ℕ} {l : FrameLayout}
    (h : f.planFrame slots reserve = .ok l) : l.IsPlanned := by
  obtain ⟨hlocals, align, halign, rfl⟩ := planFrame_eq h
  have hge := stackAlignment_ge halign
  refine ⟨by simp, Int.natCast_dvd_natCast.mpr hlocals, by simp, by simp, by simp, ?_, by simp, ?_⟩
  · exact le_max_of_le_left hge
  · intro hframed
    simp only [needsFrame, Bool.or_eq_false_iff, bne_eq_false_iff_eq] at hframed
    simp [hframed]

end SourceFunction

end AsmBridge
