import AsmBridge.Proofs.Stack.Alignment
import AsmBridge.Proofs.Stack.Frame
import Mathlib.Tactic.LinearCombination

/-!
# Accesses by the frame pointer

A body reaches its locals from the frame base, which the frame pointer holds. How far the frame
extends below its base depends on the stack pointer of the caller; `FrameLayout.depth` is how far it
does so at least. An access lies in the frame for every stack pointer of the caller exactly if it
begins within this depth and ends within the words above the base (`frameAccess_inFrame_iff`). The
depth covers what the layout counts, that is what the body takes by moving its stack pointer. A leaf
function may keep locals below its stack pointer without moving it; they are not counted, and so
they may lie outside of the frame (`not_frameAccess_inFrame`).
-/

namespace AsmBridge

namespace FrameLayout

/-- The number of bytes of a frame that are below its base, whatever the stack pointer of the
caller: of the offset of the base, rounding to the alignment drops all but the greatest common
divisor of eight and the alignment. -/
def depth (l : FrameLayout) : ℤ := l.baseOffset - (l.align - Int.gcd 8 l.align)

/-- A row of bytes lies in the frame that begins at the stack pointer of the caller. -/
def Covers (l : FrameLayout) (sp address : ℤ) (n : ℕ) : Prop :=
  sp ≤ address ∧ address + n ≤ sp + l.size

instance (l : FrameLayout) (sp address : ℤ) (n : ℕ) : Decidable (l.Covers sp address n) :=
  inferInstanceAs (Decidable (_ ∧ _))

variable {l : FrameLayout}

/-- The base is at a known distance below its offset if that is a multiple of the alignment and
this distance. -/
lemma baseAt_eq_of_add {sp q r : ℤ} (h : sp + l.baseOffset = l.align * q + r) (hr : 0 ≤ r)
    (hlt : r < l.align) : l.baseAt sp = sp + l.baseOffset - r := by
  have hquot : (l.align * q + r) / l.align = q := by
    rw [Int.mul_add_ediv_left _ _ (by omega), Int.ediv_eq_zero_of_lt hr hlt, add_zero]
  rw [baseAt, h, hquot, mul_comm]
  omega

/-- The frame extends below its base at least by its depth. -/
lemma depth_le_baseAt (h : l.IsPlanned) {sp : ℤ} (hsp : 8 ∣ sp) : sp + l.depth ≤ l.baseAt sp := by
  have hpos := h.align_pos
  have hdvd8 : ((Int.gcd 8 l.align : ℕ) : ℤ) ∣ 8 := Int.gcd_dvd_left ..
  have hdvd : ((Int.gcd 8 l.align : ℕ) : ℤ) ∣ l.align := Int.gcd_dvd_right ..
  -- What rounding drops is a multiple of the divisor, and so is what it leaves of the alignment.
  have hoffset : ((Int.gcd 8 l.align : ℕ) : ℤ) ∣ l.baseOffset := by
    unfold baseOffset
    exact Int.dvd_sub (Int.dvd_sub (hdvd.trans l.align_dvd_size) (hdvd8.trans (by decide)))
      (Dvd.dvd.mul_right hdvd8 _)
  have hleft : ((Int.gcd 8 l.align : ℕ) : ℤ) ∣ l.align - (sp + l.baseOffset) % l.align := by
    rw [Int.emod_def]
    exact Int.dvd_sub hdvd (Int.dvd_sub (Int.dvd_add (hdvd8.trans hsp) hoffset)
      (Dvd.dvd.mul_right hdvd _))
  have hlt := Int.emod_lt_of_pos (sp + l.baseOffset) hpos
  have hle := Int.le_of_dvd (by omega) hleft
  have hsplit := Int.emod_add_mul_ediv (sp + l.baseOffset) l.align
  rw [mul_comm] at hsplit
  unfold depth baseAt
  omega

/-- For some stack pointer of the caller the base is at its offset. -/
lemma exists_baseAt_eq_baseOffset (h : l.IsPlanned) :
    ∃ sp : ℕ, 8 ∣ sp ∧ l.baseAt sp = sp + l.baseOffset := by
  obtain ⟨spills, hspills⟩ := Int.eq_ofNat_of_zero_le h.spills_nonneg
  obtain ⟨units, hunits⟩ := l.align_dvd_size
  have halign := h.align_ge
  refine ⟨16 + 8 * spills, by omega, ?_⟩
  have hsum : ((16 + 8 * spills : ℕ) : ℤ) + l.baseOffset = l.align * units + 0 := by
    rw [← hunits, baseOffset, hspills]
    push_cast
    ring
  rw [baseAt_eq_of_add hsum le_rfl (by omega), sub_zero]

/-- For some stack pointer of the caller the frame extends below its base by no more than its
depth. -/
lemma exists_baseAt_eq_depth (h : l.IsPlanned) :
    ∃ sp : ℕ, 8 ∣ sp ∧ l.baseAt sp = sp + l.depth := by
  obtain ⟨spills, hspills⟩ := Int.eq_ofNat_of_zero_le h.spills_nonneg
  obtain ⟨units, hunits⟩ := l.align_dvd_size
  have halign := h.align_ge
  have hgcd : 0 < Int.gcd 8 l.align := Int.gcd_pos_of_ne_zero_left _ (by decide)
  have hle : ((Int.gcd 8 l.align : ℕ) : ℤ) ≤ l.align :=
    Int.le_of_dvd (by omega) (Int.gcd_dvd_right ..)
  have hbezout := Int.gcd_eq_gcd_ab 8 l.align
  -- So many words above the offset are the divisor below a multiple of the alignment.
  obtain ⟨words, hwords⟩ :=
    Int.eq_ofNat_of_zero_le (Int.emod_nonneg (-Int.gcdA 8 l.align) (by omega : l.align ≠ 0))
  have hsplit := Int.emod_add_mul_ediv (-Int.gcdA 8 l.align) l.align
  rw [hwords] at hsplit
  refine ⟨16 + 8 * spills + 8 * words, by omega, ?_⟩
  have hsum : ((16 + 8 * spills + 8 * words : ℕ) : ℤ) + l.baseOffset =
      l.align * (units + Int.gcdB 8 l.align - 8 * (-Int.gcdA 8 l.align / l.align) - 1) +
        (l.align - Int.gcd 8 l.align) := by
    have hsize : l.baseOffset = l.align * units - 16 - 8 * spills := by
      rw [← hunits, baseOffset, hspills]
    rw [hsize]
    push_cast
    linear_combination 8 * hsplit + hbezout
  rw [baseAt_eq_of_add hsum (by omega) (by omega), depth]
  omega

/-- An access at a distance from the base lies in the frame for every stack pointer of the caller
exactly if it begins within the depth and ends within the words above the base. -/
lemma covers_iff (h : l.IsPlanned) (d : ℤ) (n : ℕ) :
    (∀ sp : ℕ, 8 ∣ sp → l.Covers sp (l.baseAt sp + d) n) ↔
      -d ≤ l.depth ∧ d + n ≤ 16 + 8 * l.spills := by
  constructor
  · intro hcovers
    obtain ⟨low, hlow, hdepth⟩ := exists_baseAt_eq_depth h
    obtain ⟨high, hhigh, hoffset⟩ := exists_baseAt_eq_baseOffset h
    have hbegin := (hcovers low hlow).1
    have hend := (hcovers high hhigh).2
    unfold baseOffset at hoffset
    constructor <;> omega
  · rintro ⟨hbegin, hend⟩ sp hsp
    have hdepth := depth_le_baseAt h (Int.natCast_dvd_natCast.mpr hsp)
    have hoffset : l.baseAt sp ≤ sp + l.baseOffset := h.baseAt_le
    unfold baseOffset at hoffset
    constructor <;> omega

/-- The depth is the room that the layout counts for the body, rounded up. -/
lemma room_le_depth (h : l.IsPlanned) (hf : l.framed = true) (halign : 8 ∣ l.align) :
    l.room ≤ l.depth ∧ l.depth < l.room + l.align := by
  have hpos : 0 < l.align := by
    have := h.align_ge
    omega
  have hgcd : (Int.gcd 8 l.align : ℤ) = 8 := by
    rw [Int.gcd_eq_left (by decide) halign]
  have hslack := room_le_baseOffset h.align_pos hf
  have hsize : l.size < l.rawSize + l.align := by
    have hdiv := Int.ediv_mul_le (l.rawSize + l.align - 1) hpos.ne'
    rw [size, if_pos hf, Int.fdiv_eq_ediv_of_nonneg _ hpos.le]
    omega
  unfold depth
  rw [hgcd]
  refine ⟨by omega, ?_⟩
  unfold baseOffset
  unfold rawSize at hsize
  unfold room
  omega

end FrameLayout

/-- An address that is based on the frame pointer alone. -/
lemma Address.effective_of_base {a : Address} (hbase : a.base = some .rbp)
    (hindex : a.index = none) (regs : Register → ℤ) :
    a.effective regs = regs .rbp + a.disp := by
  rw [effective, hbase, hindex]
  simp

/-- In a body whose frame is planned, an access by the frame pointer lies in the frame for every
stack pointer of the caller exactly if it begins within the depth of the frame and ends within the
words above its base. The depth is what the layout counts, rounded up to its alignment. So an access
that does not begin below the stack pointer of the body lies in the frame, as long as the roundings
up to it have cost no more than the layout counts for them. -/
theorem frameAccess_inFrame_iff {f : SourceFunction} {slots : List ArgSlot} {reserve : ℕ}
    {l : FrameLayout} (hplan : f.planFrame slots reserve = .ok l) {i : Instruction}
    (hi : i ∈ f.instructions) {a : Address} (ha : a ∈ i.addresses) (hbase : a.base = some .rbp)
    (hindex : a.index = none) (n : ℕ) :
    ((∀ sp : ℕ, 8 ∣ sp → ∀ regs : Register → ℤ, regs .rbp = l.baseAt sp →
        l.Covers sp (a.effective regs) n) ↔
      -a.disp ≤ l.depth ∧ a.disp + n ≤ 16 + 8 * l.spills) ∧
    (8 ∣ l.align → l.room ≤ l.depth ∧ l.depth < l.room + l.align) ∧
    ∀ text records functions, Source.readUnit text = .ok records →
      extractFunctions records = .ok functions → f ∈ functions →
      (∀ j ∈ f.instructions, j.IsPlain) → ∀ sp, 8 ∣ sp →
      ∀ regs, SourceRun f.instructions (l.baseAt sp) regs →
      ∀ k, f.instructions[k]? = some i → regs k .rbp = l.baseAt sp →
      maskCost (f.instructions.take k) (l.baseAt sp) ≤ l.realignPad →
      regs k .rsp ≤ a.effective (regs k) → a.disp + n ≤ 16 + 8 * l.spills →
      l.Covers sp (a.effective (regs k)) n := by
  have hplanned := SourceFunction.planFrame_isPlanned hplan
  have hstack : a.isStack = true := by rw [Address.isStack, hbase]; rfl
  have hframed := framed_of_isStack hplan hi ha hstack
  refine ⟨?_, FrameLayout.room_le_depth hplanned hframed, ?_⟩
  · rw [← FrameLayout.covers_iff hplanned]
    constructor
    · intro hcovers sp hsp
      have hregs := hcovers sp hsp (fun _ => l.baseAt sp) rfl
      rwa [Address.effective_of_base hbase hindex] at hregs
    · intro hcovers sp hsp regs hregs
      rw [Address.effective_of_base hbase hindex, hregs]
      exact hcovers sp hsp
  · intro text records functions hread hextract hf hplain sp hsp regs hrun k hk hframe hcost habove
      hend
    have hstart : l.start sp = l.baseAt sp := if_pos hframed
    rw [← hstart] at hrun hcost
    have hlength : k ≤ f.instructions.length := (List.getElem?_eq_some_iff.mp hk).1.le
    have hlow := (inFrame_of_maskCost (extractFunctions_isRead hread hextract hf) hplain hplan hsp
      hrun hlength hcost).1
    have hoffset : l.baseAt sp ≤ sp + l.baseOffset := hplanned.baseAt_le
    rw [Address.effective_of_base hbase hindex, hframe] at habove ⊢
    unfold FrameLayout.baseOffset at hoffset
    constructor <;> omega

/-- A body that takes room before it stores its argument there. -/
theorem frameAccess_inFrame_iff_of_local :
    let text := String.join [
      "f: push rbp\n", "mov rbp, rsp\n", "sub rsp, 16\n", "mov qword ptr [rbp - 16], rdi\n",
      "leave\n", "ret\n"]
    let l : FrameLayout := { locals := 16 }
    let a : Address := { base := some .rbp, disp := -16, bits := some 64 }
    ∃ records functions, Source.readUnit text = .ok records ∧
      extractFunctions records = .ok functions ∧ ∃ f ∈ functions, f.planFrame [] 0 = .ok l ∧
        ∃ i ∈ f.instructions, i.mnemonic = "mov" ∧ a ∈ i.addresses ∧
          ∀ sp : ℕ, 8 ∣ sp → ∀ regs : Register → ℤ, regs .rbp = l.baseAt sp →
            l.Covers sp (a.effective regs) 8 := by
  intro text l a
  obtain ⟨records, functions, hread, hextract, f, hf, hplan, i, hi, hmov, ha⟩ :
      ∃ records functions, Source.readUnit text = .ok records ∧
        extractFunctions records = .ok functions ∧ ∃ f ∈ functions, f.planFrame [] 0 = .ok l ∧
          ∃ i ∈ f.instructions, i.mnemonic = "mov" ∧ a ∈ i.addresses :=
    exists_functions_of_any (by decide +kernel)
  refine ⟨records, functions, hread, hextract, f, hf, hplan, i, hi, hmov, ha, ?_⟩
  exact (frameAccess_inFrame_iff hplan hi ha rfl rfl 8).1.mpr (by decide)

/-- A leaf function that stores its argument below its stack pointer, which it does not move. Its
frame is planned without room for it, and the store is outside of the frame. -/
theorem not_frameAccess_inFrame :
    let text := String.join [
      "f: push rbp\n", "mov rbp, rsp\n", "mov qword ptr [rbp - 128], rdi\n",
      "mov rax, qword ptr [rbp - 128]\n", "pop rbp\n", "ret\n"]
    let l : FrameLayout := {}
    let a : Address := { base := some .rbp, disp := -128, bits := some 64 }
    ∃ records functions, Source.readUnit text = .ok records ∧
      extractFunctions records = .ok functions ∧ ∃ f ∈ functions,
        f.planFrame [] 0 = .ok l ∧ l.framed = true ∧
        ∃ i ∈ f.instructions, i.mnemonic = "mov" ∧ a ∈ i.addresses ∧
          ¬ l.Covers 1000 (a.effective fun _ => l.baseAt 1000) 8 := by
  intro text l a
  exact exists_functions_of_any (by decide +kernel)

end AsmBridge
