import AsmBridge.Proofs.Stack.Base

/-!
# The stack of a body inside the frame

A body runs on a stack pointer of its own, which begins at the frame base and must not fall below
the stack pointer of the caller, where the frame ends. The layout counts every constant amount by
which the body lowers the stack pointer, every push, the room that calls need, and what one rounding
of the set-up may cost. So the body stays inside the frame wherever its roundings have cost no more
than that, which they never do if there is only that one (`stackPointer_inFrame`). A rounding behind
the set-up is not counted, and with it a body can leave the frame (`not_inFrame`).
-/

namespace AsmBridge

/-- The body rounds its stack pointer at most once, to the alignment that its set-up notes, which is
one of words, and with whole words on the stack. -/
def SourceFunction.RoundsInSetup (f : SourceFunction) : Prop :=
  (∀ i ∈ f.instructions, i.rounds = false) ∨
    ∃ front i back, f.instructions = front ++ i :: back ∧ i.stackMove = .mask f.realign ∧
      8 ≤ f.realign ∧ (∀ j ∈ back, j.rounds = false) ∧
      ∀ j ∈ front, j.rounds = false ∧ ∀ n, j.stackMove = .shift n → 8 ∣ n

/-- A row of instructions lowers the stack pointer by no more than what is tallied and a word for
each push. -/
lemma sum_lowers_le (is : List Instruction) :
    (is.map (·.lowers)).sum ≤
      (is.map (·.growth)).sum + 8 * is.countP fun i => i.mnemonic == "push" := by
  induction is with
  | nil => simp
  | cons i is ih =>
    have hi := i.lowers_le
    rw [List.map_cons, List.sum_cons, List.map_cons, List.sum_cons, List.countP_cons]
    split_ifs at hi ⊢ <;> omega

/-- What keeps the stack pointer keeps it over a whole row. -/
lemma stackPointer_of_keep {is : List Instruction} (h : ∀ i ∈ is, i.stackMove = .keep) (s : ℤ) :
    stackPointer is s = s := by
  induction is generalizing s with
  | nil => rfl
  | cons i is ih =>
    rw [stackPointer_cons, h i List.mem_cons_self]
    exact ih (fun j hj => h j (List.mem_cons_of_mem _ hj)) _

/-- The amounts by which a part of a body lowers the stack pointer are counted in its layout. -/
lemma sum_lowers_take_le {f : SourceFunction} {slots : List ArgSlot} {reserve : ℕ}
    {l : FrameLayout} (hf : f.IsTallied) (h : f.planFrame slots reserve = .ok l) (k : ℕ) :
    (((f.instructions.take k).map (·.lowers)).sum : ℕ) ≤ l.locals + 8 * l.pushes := by
  obtain ⟨-, align, -, rfl⟩ := SourceFunction.planFrame_eq h
  have hprefix : ((f.instructions.take k).map (·.lowers)).sum ≤
      (f.instructions.map (·.lowers)).sum := by
    conv_rhs => rw [← List.take_append_drop k f.instructions, List.map_append, List.sum_append]
    exact Nat.le_add_right _ _
  have hall := sum_lowers_le f.instructions
  rw [← hf.locals] at hall
  dsimp only
  omega

section Planned

variable {f : SourceFunction} {slots : List ArgSlot} {reserve : ℕ} {l : FrameLayout} {sp : ℤ}

/-- The stack pointer with which a body begins is a multiple of eight. -/
lemma dvd_start (hf : f.IsRead) (hplain : ∀ i ∈ f.instructions, i.IsPlain)
    (hplan : f.planFrame slots reserve = .ok l) (hsp : 8 ∣ sp) : 8 ∣ l.align ∧ 8 ∣ l.start sp := by
  obtain ⟨⟨m, hm, halign⟩, -⟩ := planFrame_align hf hplain hplan
  have height : 8 ∣ l.align := halign ▸ pow_dvd_pow (2 : ℤ) (show 3 ≤ m by omega)
  refine ⟨height, ?_⟩
  unfold FrameLayout.start
  split
  · exact height.trans (Dvd.intro_left _ rfl)
  · exact hsp

/-- A body that rounds only in its set-up costs no more than the layout counts. -/
lemma maskCost_le_realignPad (hf : f.IsRead) (hplain : ∀ i ∈ f.instructions, i.IsPlain)
    (hplan : f.planFrame slots reserve = .ok l) (hsp : 8 ∣ sp) (hrounds : f.RoundsInSetup) (k : ℕ) :
    maskCost (f.instructions.take k) (l.start sp) ≤ l.realignPad := by
  have hstart := (dvd_start hf hplain hplan hsp).2
  obtain ⟨-, align, -, hl⟩ := SourceFunction.planFrame_eq hplan
  have hrealign : l.realign = f.realign := by rw [hl]
  refine (maskCost_take_le _ _ k).trans ?_
  unfold FrameLayout.realignPad
  rw [hrealign]
  rcases hrounds with hnone | ⟨front, i, back, heq, hi, hword, hback, hfront⟩
  · have hzero : f.realign = 0 := by
      rcases hf.tallied.realign with hzero | ⟨i, hi, hmasks⟩
      · exact hzero
      · have hnot := hnone i hi
        rw [Instruction.rounds, hmasks.stackMove_eq (hplain i hi)] at hnot
        cases hnot
    rw [maskCost_eq_zero hnone, hzero]
    rfl
  · rw [heq, if_neg (by omega)]
    exact maskCost_le_of_single (fun j hj => (hfront j hj).1) hi hback
      (dvd_stackPointer hstart hfront) hword

/-- The body runs inside its frame wherever its roundings have cost no more than the layout
counts. -/
lemma inFrame_of_maskCost {regs : ℕ → Register → ℤ} {k : ℕ} (hf : f.IsRead)
    (hplain : ∀ i ∈ f.instructions, i.IsPlain) (hplan : f.planFrame slots reserve = .ok l)
    (hsp : 8 ∣ sp) (hrun : SourceRun f.instructions (l.start sp) regs)
    (hk : k ≤ f.instructions.length)
    (hcost : maskCost (f.instructions.take k) (l.start sp) ≤ l.realignPad) :
    sp ≤ regs k .rsp ∧
      ∀ i, f.instructions[k]? = some i → i.isCall = true → sp ≤ regs k .rsp - reserve := by
  have hlower := le_stackPointer (f.instructions.take k) (l.start sp)
  rw [← hrun.stack_eq hplain hk] at hlower
  cases hframed : l.framed with
  | true =>
    have hplanned := SourceFunction.planFrame_isPlanned hplan
    have hcounted := sum_lowers_take_le hf.tallied hplan k
    have height := (dvd_start hf hplain hplan hsp).1
    have hroom := FrameLayout.room_le_baseAt hplanned.align_pos height hframed hsp
    have hreserve : l.callReserve = reserve := by
      obtain ⟨-, align, -, rfl⟩ := SourceFunction.planFrame_eq hplan
      rfl
    rw [FrameLayout.start, if_pos hframed] at hlower hcost
    unfold FrameLayout.room at hroom
    refine ⟨?_, fun i _ _ => ?_⟩ <;> omega
  | false =>
    have hunframed : f.needsFrame (slots.countP (·.register?.isNone)) reserve = false := by
      obtain ⟨-, align, -, rfl⟩ := SourceFunction.planFrame_eq hplan
      exact hframed
    have hkeep := fun i hi => keep_of_unframed hunframed hi (hplain i hi)
    have hstack : regs k .rsp = sp := by
      rw [hrun.stack_eq hplain hk, stackPointer_of_keep fun i hi =>
        (hkeep i (List.mem_of_mem_take hi)).1, FrameLayout.start, hframed]
      rfl
    refine ⟨hstack.ge, fun i hi hcall => ?_⟩
    have hnot := (hkeep i (List.mem_of_getElem? hi)).2
    rw [hcall] at hnot
    cases hnot

end Planned

/-- The body of a function runs inside its frame, and leaves there the room that its calls need,
wherever its roundings have cost no more than the layout counts for them. They cost no more if the
body rounds only in its set-up. -/
theorem stackPointer_inFrame {text : String} {records : List Record}
    {functions : List SourceFunction} {f : SourceFunction} {slots : List ArgSlot} {reserve : ℕ}
    {l : FrameLayout} {sp : ℤ} (hread : Source.readUnit text = .ok records)
    (hextract : extractFunctions records = .ok functions) (hf : f ∈ functions)
    (hplain : ∀ i ∈ f.instructions, i.IsPlain) (hplan : f.planFrame slots reserve = .ok l)
    (hsp : 8 ∣ sp) :
    (∀ regs, SourceRun f.instructions (l.start sp) regs → ∀ k ≤ f.instructions.length,
      maskCost (f.instructions.take k) (l.start sp) ≤ l.realignPad →
      sp ≤ regs k .rsp ∧
        ∀ i, f.instructions[k]? = some i → i.isCall = true → sp ≤ regs k .rsp - reserve) ∧
    (f.RoundsInSetup →
      ∀ k, maskCost (f.instructions.take k) (l.start sp) ≤ l.realignPad) := by
  have hfread := extractFunctions_isRead hread hextract hf
  exact ⟨fun regs hrun k hk => inFrame_of_maskCost hfread hplain hplan hsp hrun hk,
    maskCost_le_realignPad hfread hplain hplan hsp⟩

/-- A body that pushes a register, aligns its stack, takes room and calls a helper which needs more
room. It rounds only in its set-up, and stays inside its frame for every stack pointer of the
caller. -/
theorem stackPointer_inFrame_of_setup :
    let text := String.join [
      "f: push rbp\n", "mov rbp, rsp\n", "push rbx\n", "and rsp, -64\n", "sub rsp, 64\n",
      "call memcpy\n", "leave\n", "ret\n"]
    let l : FrameLayout :=
      { locals := 64, pushes := 1, callReserve := 32, align := 64, realign := 64 }
    ∃ records functions, Source.readUnit text = .ok records ∧
      extractFunctions records = .ok functions ∧ ∃ f ∈ functions,
        (∀ i ∈ f.instructions, i.IsPlain) ∧ f.planFrame [] 32 = .ok l ∧ f.RoundsInSetup ∧
        ∀ sp, 8 ∣ sp → ∀ regs, SourceRun f.instructions (l.start sp) regs →
          ∀ k ≤ f.instructions.length, sp ≤ regs k .rsp ∧
            ∀ i, f.instructions[k]? = some i → i.isCall = true → sp ≤ regs k .rsp - (32 : ℕ) := by
  intro text l
  obtain ⟨records, functions, hread, hextract, f, hf, hplain, hplan, hrealign, hmoves⟩ :
      ∃ records functions, Source.readUnit text = .ok records ∧
        extractFunctions records = .ok functions ∧ ∃ f ∈ functions,
          (∀ i ∈ f.instructions, i.IsPlain) ∧ f.planFrame [] 32 = .ok l ∧ f.realign = 64 ∧
          f.instructions.map (·.stackMove) = [.shift (-8), .mask 64, .shift (-64), .keep] :=
    exists_functions_of_any (by decide +kernel)
  have hrounds : f.RoundsInSetup := by
    obtain ⟨push, rest, heq, hpush, hmoves⟩ := List.map_eq_cons_iff.mp hmoves
    obtain ⟨mask, back, rfl, hmask, hmoves⟩ := List.map_eq_cons_iff.mp hmoves
    refine .inr ⟨[push], mask, back, heq, hrealign ▸ hmask, by omega, ?_, ?_⟩
    · intro j hj
      have hmove := List.mem_map_of_mem (f := (·.stackMove)) hj
      rw [hmoves] at hmove
      rw [Instruction.rounds]
      rcases List.mem_cons.mp hmove with h | hmove
      · rw [h]
      · rw [List.mem_singleton.mp hmove]
    · intro j hj
      rw [List.mem_singleton.mp hj, Instruction.rounds, hpush]
      refine ⟨rfl, ?_⟩
      rintro n ⟨⟩
      decide
  refine ⟨records, functions, hread, hextract, f, hf, hplain, hplan, hrounds, ?_⟩
  intro sp hsp regs hrun k hk
  obtain ⟨hframe, hcost⟩ := stackPointer_inFrame hread hextract hf hplain hplan hsp
  exact hframe regs hrun k hk (hcost hrounds k)

/-- A body that aligns its stack behind an instruction that does not belong to the set-up. The
layout does not count the rounding, and at some stack pointers of the caller the body leaves the
frame. -/
theorem not_inFrame :
    let text := String.join [
      "f: push rbp\n", "mov rbp, rsp\n", "mov rax, rdi\n", "and rsp, -64\n", "sub rsp, 64\n",
      "mov [rsp], rax\n", "leave\n", "ret\n"]
    let l : FrameLayout := { locals := 64 }
    ∃ records functions, Source.readUnit text = .ok records ∧
      extractFunctions records = .ok functions ∧ ∃ f ∈ functions,
        (∀ i ∈ f.instructions, i.IsPlain) ∧ f.planFrame [] 0 = .ok l ∧
        ∃ regs, SourceRun f.instructions (l.start 1000) regs ∧ ¬ 1000 ≤ regs 3 .rsp := by
  intro text l
  obtain ⟨records, functions, hread, hextract, f, hf, hplain, hplan, hlow⟩ :
      ∃ records functions, Source.readUnit text = .ok records ∧
        extractFunctions records = .ok functions ∧ ∃ f ∈ functions,
          (∀ i ∈ f.instructions, i.IsPlain) ∧ f.planFrame [] 0 = .ok l ∧
          ¬ 1000 ≤ stackPointer (f.instructions.take 3) (l.start 1000) :=
    exists_functions_of_any (by decide +kernel)
  exact ⟨records, functions, hread, hextract, f, hf, hplain, hplan, _,
    sourceRun_stackPointer f.instructions (l.start 1000), hlow⟩

end AsmBridge
