import AsmBridge.Access
import AsmBridge.Proofs.Function.Tally
import Mathlib.Data.Int.ModEq
import Mathlib.Tactic.Linarith
import Mathlib.Tactic.Ring

/-!
# The stack pointer along a row of instructions

`Instruction.stackMove` tells what an instruction does to the stack pointer, and a `SourceRun` is a
history of the registers in which each instruction of a row does to the stack pointer what it tells.
Such a run keeps the stack pointer above the sum of all amounts by which it is lowered and of what
its roundings cost (`le_stackPointer`), and modulo a power of two it does not depend on where in a
class it starts (`stackPointer_modEq`).
-/

namespace AsmBridge

/-- What an instruction does to the stack pointer. -/
inductive StackMove
  | keep
  /-- The stack pointer is raised, or lowered if the number is negative. -/
  | shift (n : ℤ)
  /-- It is rounded down to a multiple of the number. -/
  | mask (align : ℕ)
  | unknown
deriving DecidableEq

/-- The stack pointer behind a move; an unknown move is left out. -/
def StackMove.apply : StackMove → ℤ → ℤ
  | .keep, s => s
  | .shift n, s => s + n
  | .mask align, s => s / align * align
  | .unknown, s => s

/-- Instructions that change the stack pointer, and some of them the frame pointer, without naming
it; pushes, pops, calls and returns apart. -/
def stackInstructions : List String := ["enter", "leave", "pushf", "pushfq", "popf", "popfq"]

namespace Instruction

/-- The instruction may write a register of the family of `r`. -/
def mayWrite (i : Instruction) (r : Register) : Bool :=
  stackInstructions.contains i.mnemonic ||
    match Access.ofInstruction i with
    | .ok a => a.writes.any (·.family == r.family)
    | .error _ => true

/-- The bytes that a push or a pop moves: two for an operand of 16 bits, else eight. -/
def slotBytes (i : Instruction) : ℤ :=
  match i.operands with
  | [.reg r] => if r.bits = 16 then 2 else 8
  | [.mem a] => if a.bits = some 16 then 2 else 8
  | _ => 8

/-- The move of an addition to the stack pointer, of a subtraction from it or of a conjunction with
it. A conjunction rounds if the number is the negative of a power of two. -/
def adjustment (mnemonic : String) : Operand → StackMove
  | .imm v =>
    if mnemonic = "sub" then .shift (-v)
    else if mnemonic = "add" then .shift v
    else if v < 0 ∧ 2 ^ (-v).toNat.log2 = (-v).toNat then .mask (-v).toNat
    else .unknown
  | _ => .unknown

/-- The move of an instruction that is no such operation. -/
def otherMove (i : Instruction) : StackMove :=
  if i.mayWrite .rsp then .unknown
  else if i.mnemonic = "push" then .shift (-i.slotBytes)
  else if i.mnemonic = "pop" then .shift i.slotBytes
  else .keep

/-- What the instruction does to the stack pointer. -/
def stackMove (i : Instruction) : StackMove :=
  match i.operands with
  | [.reg r, amount] =>
    if r = .rsp ∧ ["sub", "add", "and"].contains i.mnemonic then adjustment i.mnemonic amount
    else i.otherMove
  | _ => i.otherMove

/-- The instruction changes the stack pointer only as a push, a pop, an addition or subtraction of
a number, or a rounding. -/
def IsPlain (i : Instruction) : Prop := i.stackMove ≠ .unknown

instance (i : Instruction) : Decidable i.IsPlain := inferInstanceAs (Decidable (_ ≠ _))

/-- The instruction rounds the stack pointer. -/
def rounds (i : Instruction) : Bool :=
  match i.stackMove with
  | .mask _ => true
  | _ => false

/-- The number of bytes by which the instruction lowers the stack pointer without rounding it. -/
def lowers (i : Instruction) : ℕ :=
  match i.stackMove with
  | .shift n => (-n).toNat
  | _ => 0

end Instruction

/-- The stack pointer behind a row of instructions. -/
def stackPointer (is : List Instruction) (s : ℤ) : ℤ := is.foldl (fun s i => i.stackMove.apply s) s

/-- The number of bytes that the roundings in a row of instructions cost. -/
def maskCost : List Instruction → ℤ → ℤ
  | [], _ => 0
  | i :: is, s =>
    (match i.stackMove with
      | .mask align => s % align
      | _ => 0) + maskCost is (i.stackMove.apply s)

/-- The registers before each instruction of a row, which is run once and in order from a stack
pointer on. -/
structure SourceRun (is : List Instruction) (start : ℤ) (regs : ℕ → Register → ℤ) : Prop where
  start : regs 0 .rsp = start
  step : ∀ k i, is[k]? = some i → i.IsPlain → regs (k + 1) .rsp = i.stackMove.apply (regs k .rsp)

/-! ## Single instructions -/

namespace Instruction

variable {i : Instruction}

/-- The move of an operation on the stack pointer. -/
lemma stackMove_of_operands {amount : Operand} (hoperands : i.operands = [.reg .rsp, amount])
    (hmnemonic : i.mnemonic = "sub" ∨ i.mnemonic = "add" ∨ i.mnemonic = "and") :
    i.stackMove = adjustment i.mnemonic amount := by
  simp only [stackMove, hoperands, true_and]
  rw [if_pos]
  rcases hmnemonic with h | h | h <;> simp [h]

/-- An instruction is an operation on the stack pointer or another one. -/
lemma stackMove_cases (i : Instruction) :
    (∃ amount, i.operands = [.reg .rsp, amount] ∧
      (i.mnemonic = "sub" ∨ i.mnemonic = "add" ∨ i.mnemonic = "and") ∧
      i.stackMove = adjustment i.mnemonic amount) ∨ i.stackMove = i.otherMove := by
  by_cases h : ∃ amount, i.operands = [.reg .rsp, amount] ∧
      (i.mnemonic = "sub" ∨ i.mnemonic = "add" ∨ i.mnemonic = "and")
  · obtain ⟨amount, hoperands, hmnemonic⟩ := h
    exact .inl ⟨amount, hoperands, hmnemonic, stackMove_of_operands hoperands hmnemonic⟩
  · refine .inr ?_
    unfold stackMove
    split
    · rename_i r amount hoperands
      rw [if_neg]
      rintro ⟨rfl, hmnemonic⟩
      exact h ⟨amount, hoperands, by simpa using hmnemonic⟩
    · rfl

/-- A rounding is one to a power of two. -/
lemma exists_twoPow_of_mask {align : ℕ} (h : i.stackMove = .mask align) :
    ∃ m : ℕ, align = 2 ^ m := by
  rcases i.stackMove_cases with ⟨amount, -, -, hmove⟩ | hmove <;> rw [hmove] at h
  · cases amount with
    | imm v =>
      rw [adjustment] at h
      split_ifs at h with h₁ h₂ hpow
      obtain rfl := StackMove.mask.inj h
      exact ⟨_, hpow.2.symm⟩
    | _ => cases h
  · rw [otherMove] at h
    split_ifs at h

/-- The alignment that a set-up notes is that of a rounding. -/
lemma Masks.stackMove_eq {align : ℕ} (h : i.Masks align) (hplain : i.IsPlain) :
    i.stackMove = .mask align := by
  obtain ⟨v, hv, hand, rfl⟩ := h
  rw [isExactly, Bool.and_eq_true, beq_iff_eq, beq_iff_eq] at hand
  have hmove := stackMove_of_operands hand.2 (.inr (.inr hand.1))
  rw [hand.1, adjustment, if_neg (by decide), if_neg (by decide)] at hmove
  rw [IsPlain] at hplain
  rw [hmove] at hplain ⊢
  split_ifs at hplain ⊢ with hpow
  · rfl
  · exact absurd rfl hplain

/-- What is tallied as unknown is unknown. -/
lemma stackMove_of_unknown (h : Draft.stackStep i = .unknown) : i.stackMove = .unknown := by
  unfold Draft.stackStep at h
  split at h
  · rename_i hmnemonic
    split at h
    · rename_i r amount hoperands
      by_cases hr : r = .rsp
      swap
      · rw [if_neg hr] at h
        cases h
      rw [if_pos hr] at h
      subst hr
      simp only [Bool.or_eq_true, beq_iff_eq] at hmnemonic
      rw [stackMove_of_operands hoperands (hmnemonic.imp_right .inl)]
      cases amount with
      | imm v => cases h
      | _ => rfl
    · cases h
  · cases h

/-- An instruction lowers the stack pointer by no more than what is tallied, and a push by a word
more. -/
lemma lowers_le (i : Instruction) :
    i.lowers ≤ i.growth + if i.mnemonic == "push" then 8 else 0 := by
  rw [lowers]
  rcases i.stackMove_cases with ⟨amount, hoperands, hmnemonic, hmove⟩ | hmove <;> rw [hmove]
  · cases amount with
    | imm v =>
      rcases hmnemonic with h | h | h
      · simp [adjustment, growth, Draft.stackStep, h, hoperands]
      · simp [adjustment, growth, Draft.stackStep, h, hoperands]
      · rw [h, adjustment, if_neg (by decide), if_neg (by decide)]
        split_ifs <;> simp
    | _ => simp [adjustment]
  · have hslot : i.slotBytes = 2 ∨ i.slotBytes = 8 := by
      rw [slotBytes]
      split
      · split_ifs <;> simp
      · split_ifs <;> simp
      · simp
    have hcases : i.otherMove = .unknown ∨
        (i.mnemonic = "push" ∧ i.otherMove = .shift (-i.slotBytes)) ∨
        i.otherMove = .shift i.slotBytes ∨ i.otherMove = .keep := by
      rw [otherMove]
      split_ifs with hwrite hpush hpop
      · exact .inl rfl
      · exact .inr (.inl ⟨hpush, rfl⟩)
      · exact .inr (.inr (.inl rfl))
      · exact .inr (.inr (.inr rfl))
    rcases hcases with h | ⟨hpush, h⟩ | h | h <;> rw [h]
    · exact Nat.zero_le _
    · rw [hpush]
      simp only [neg_neg, beq_self_eq_true, if_true]
      omega
    · have hzero : (-i.slotBytes).toNat = 0 := by omega
      simp only [hzero]
      exact Nat.zero_le _
    · exact Nat.zero_le _

end Instruction

/-! ## Rows of instructions -/

@[simp] lemma stackPointer_nil (s : ℤ) : stackPointer [] s = s := rfl

@[simp] lemma stackPointer_cons (i : Instruction) (is : List Instruction) (s : ℤ) :
    stackPointer (i :: is) s = stackPointer is (i.stackMove.apply s) := rfl

lemma stackPointer_append (is js : List Instruction) (s : ℤ) :
    stackPointer (is ++ js) s = stackPointer js (stackPointer is s) :=
  List.foldl_append

/-- Every row of instructions has a run, in which the other registers stay as they are. -/
lemma sourceRun_stackPointer (is : List Instruction) (start : ℤ) :
    SourceRun is start fun k r => if r = .rsp then stackPointer (is.take k) start else start := by
  refine ⟨rfl, fun k i hi _ => ?_⟩
  rw [if_pos rfl, if_pos rfl, List.take_add_one, hi, stackPointer_append]
  rfl

/-- A run follows the moves of its instructions. -/
lemma SourceRun.stack_eq {is : List Instruction} {start : ℤ} {regs : ℕ → Register → ℤ}
    (h : SourceRun is start regs) (hplain : ∀ i ∈ is, i.IsPlain) {k : ℕ} (hk : k ≤ is.length) :
    regs k .rsp = stackPointer (is.take k) start := by
  induction k with
  | zero => exact h.start
  | succ k ih =>
    have hget : is[k]? = some is[k] := List.getElem?_eq_getElem hk
    rw [h.step k is[k] hget (hplain _ (List.getElem_mem hk)), ih (by omega), List.take_add_one,
      hget, stackPointer_append]
    rfl

/-- A row of instructions lowers the stack pointer by no more than its amounts and what its
roundings cost. -/
lemma le_stackPointer (is : List Instruction) (s : ℤ) :
    s ≤ stackPointer is s + (is.map (·.lowers)).sum + maskCost is s := by
  induction is generalizing s with
  | nil => simp [maskCost]
  | cons i is ih =>
    have hrest := ih (i.stackMove.apply s)
    have hfirst : s ≤ i.stackMove.apply s + i.lowers +
        (match i.stackMove with
          | .mask align => s % align
          | _ => 0) := by
      rw [Instruction.lowers]
      cases i.stackMove with
      | keep => simp [StackMove.apply]
      | shift n =>
        simp only [StackMove.apply]
        omega
      | mask align =>
        simp only [StackMove.apply]
        have := Int.emod_add_mul_ediv s align
        linarith [mul_comm (align : ℤ) (s / align)]
      | unknown => simp [StackMove.apply]
    rw [stackPointer_cons, maskCost, List.map_cons, List.sum_cons, Nat.cast_add]
    linarith

/-- Rounding down to a multiple of a power of two respects the classes modulo another one. -/
lemma round_modEq {s t : ℤ} {j m : ℕ} (h : s ≡ t [ZMOD 2 ^ m]) :
    s / 2 ^ j * 2 ^ j ≡ t / 2 ^ j * 2 ^ j [ZMOD 2 ^ m] := by
  have hround : ∀ x : ℤ, x / 2 ^ j * 2 ^ j = x - x % 2 ^ j := by
    intro x
    have := Int.emod_add_mul_ediv x (2 ^ j)
    linarith [mul_comm (x / 2 ^ j) (2 ^ j)]
  rcases le_total j m with hjm | hmj
  · rw [hround, hround]
    have hrem : s % 2 ^ j = t % 2 ^ j := h.of_dvd (pow_dvd_pow 2 hjm)
    rw [hrem]
    exact h.sub_right _
  · have hzero : ∀ x : ℤ, x / 2 ^ j * 2 ^ j ≡ 0 [ZMOD 2 ^ m] := fun x =>
      Int.modEq_zero_iff_dvd.mpr (Dvd.dvd.mul_left (pow_dvd_pow 2 hmj) _)
    exact (hzero s).trans (hzero t).symm

/-- Moves respect the classes modulo a power of two. -/
lemma stackPointer_modEq (is : List Instruction) {s t : ℤ} {m : ℕ} (h : s ≡ t [ZMOD 2 ^ m]) :
    stackPointer is s ≡ stackPointer is t [ZMOD 2 ^ m] := by
  induction is generalizing s t with
  | nil => exact h
  | cons i is ih =>
    have happly : i.stackMove.apply s ≡ i.stackMove.apply t [ZMOD 2 ^ m] := by
      cases hmove : i.stackMove with
      | keep => exact h
      | shift n => exact h.add_right n
      | mask align =>
        obtain ⟨j, rfl⟩ := i.exists_twoPow_of_mask hmove
        simpa [StackMove.apply] using round_modEq h
      | unknown => exact h
    exact ih happly

/-- Moves by whole words keep a multiple of eight. -/
lemma dvd_stackPointer {is : List Instruction} {s : ℤ} (hs : 8 ∣ s)
    (h : ∀ i ∈ is, i.rounds = false ∧ ∀ n, i.stackMove = .shift n → 8 ∣ n) :
    8 ∣ stackPointer is s := by
  induction is generalizing s with
  | nil => exact hs
  | cons i is ih =>
    obtain ⟨⟨hrounds, hshift⟩, hrest⟩ := List.forall_mem_cons.mp h
    rw [stackPointer_cons]
    refine ih ?_ hrest
    rw [Instruction.rounds] at hrounds
    cases hmove : i.stackMove with
    | keep => exact hs
    | shift n => exact Int.dvd_add hs (hshift n hmove)
    | mask align =>
      rw [hmove] at hrounds
      cases hrounds
    | unknown => exact hs

/-- The roundings of a row in two parts. -/
lemma maskCost_append (is js : List Instruction) (s : ℤ) :
    maskCost (is ++ js) s = maskCost is s + maskCost js (stackPointer is s) := by
  induction is generalizing s with
  | nil => simp [maskCost]
  | cons i is ih => simp [maskCost, ih, add_assoc]

/-- Rows without roundings cost nothing. -/
lemma maskCost_eq_zero {is : List Instruction} (h : ∀ i ∈ is, i.rounds = false) (s : ℤ) :
    maskCost is s = 0 := by
  induction is generalizing s with
  | nil => rfl
  | cons i is ih =>
    obtain ⟨hi, hrest⟩ := List.forall_mem_cons.mp h
    rw [maskCost, ih hrest, add_zero]
    rw [Instruction.rounds] at hi
    cases hmove : i.stackMove with
    | mask align =>
      rw [hmove] at hi
      cases hi
    | _ => rfl

/-- Roundings never give anything back. -/
lemma maskCost_nonneg (is : List Instruction) (s : ℤ) : 0 ≤ maskCost is s := by
  induction is generalizing s with
  | nil => exact le_rfl
  | cons i is ih =>
    rw [maskCost]
    refine add_nonneg ?_ (ih _)
    cases hmove : i.stackMove with
    | mask align =>
      obtain ⟨m, rfl⟩ := i.exists_twoPow_of_mask hmove
      exact Int.emod_nonneg _ (by positivity)
    | _ => exact le_rfl

/-- A part of a row costs no more than the row. -/
lemma maskCost_take_le (is : List Instruction) (s : ℤ) (k : ℕ) :
    maskCost (is.take k) s ≤ maskCost is s := by
  conv_rhs => rw [← List.take_append_drop k is, maskCost_append]
  exact le_add_of_nonneg_right (maskCost_nonneg _ _)

/-- A single rounding from a multiple of eight costs at most eight less than its alignment. -/
lemma maskCost_le_of_single {front back : List Instruction} {i : Instruction} {align : ℕ} {s : ℤ}
    (hfront : ∀ j ∈ front, j.rounds = false) (hi : i.stackMove = .mask align)
    (hback : ∀ j ∈ back, j.rounds = false) (hs : 8 ∣ stackPointer front s) (halign : 8 ≤ align) :
    maskCost (front ++ i :: back) s ≤ align - 8 := by
  obtain ⟨m, rfl⟩ := i.exists_twoPow_of_mask hi
  have height : (8 : ℤ) ∣ (2 ^ m : ℕ) := by
    have hm : 3 ≤ m := (Nat.pow_le_pow_iff_right (show 1 < 2 by decide)).mp halign
    exact_mod_cast pow_dvd_pow 2 hm
  rw [maskCost_append, maskCost_eq_zero hfront, zero_add, maskCost, maskCost_eq_zero hback,
    add_zero]
  simp only [hi]
  have hlt := Int.emod_lt_of_pos (stackPointer front s) (show (0 : ℤ) < (2 ^ m : ℕ) by omega)
  have hdvd : (8 : ℤ) ∣ stackPointer front s % (2 ^ m : ℕ) := by
    rw [Int.emod_def]
    exact Int.dvd_sub hs (Dvd.dvd.mul_right height _)
  omega

end AsmBridge
