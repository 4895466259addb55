import AsmBridge.Proofs.Stack.Base

/-!
# The alignment of accesses to the stack

An access based on the frame pointer is aligned as long as the frame pointer holds the frame base.
For an access based on the stack pointer the planning of the frame takes the stack pointer to be at
one depth throughout (`SourceFunction.checkedDepth`): below all that the body takes, or below what
it takes once its set-up has rounded the stack pointer. Such an access is aligned exactly if the
stack pointer, run from zero on, is at that depth when the access is made, up to a multiple of the
alignment (`stackAccess_aligned_iff`), whatever the stack pointer of the caller. Before all is taken
it may be at another depth, and then an access is accepted that is not aligned
(`not_stackAccess_aligned`).
-/

namespace AsmBridge

/-- The value of an address. -/
def Address.effective (a : Address) (regs : Register → ℤ) : ℤ :=
  (a.base.map regs).getD 0 + (a.index.map fun r => (a.scale.getD .one).factor * regs r).getD 0 +
    a.disp

/-- The depth at which the stack pointer is taken to be when accesses of an alignment are checked:
below the frame base, or below the rounding of the set-up if that is to a multiple of the
alignment. -/
def SourceFunction.checkedDepth (f : SourceFunction) (align : ℕ) : ℤ :=
  if (align : ℤ) ≤ f.realign then f.locals else f.locals + 8 * f.pushes

/-- The fault says that something is not aligned. -/
def Fault.IsAlignment (e : Fault) : Prop := ∃ d, e = .defect d ∧ d.defect.kind = .alignment

/-! ## Accepted accesses -/

/-- A stack pointer that passes the check is at a depth of whole units of the alignment. -/
lemma dvd_checkedDepth {f : SourceFunction} {align : ℕ} (h : stackPointerAligned f align = true) :
    (align : ℤ) ∣ f.checkedDepth align := by
  unfold stackPointerAligned at h
  unfold SourceFunction.checkedDepth
  split at h <;> rename_i hle
  · rw [if_pos hle]
    exact Int.dvd_of_emod_eq_zero (by simpa [isAligned] using h)
  · rw [if_neg hle]
    rw [Bool.and_eq_true] at h
    exact Int.dvd_of_emod_eq_zero (by simpa [isAligned] using h.2)

/-- An address that passes the check is its base and a multiple of the alignment. -/
lemma effective_of_aligned {f : SourceFunction} {a : Address} {align : ℕ} {r : Register}
    (h : stackAddressAligned f a align = true) (hbase : a.base = some r) (regs : Register → ℤ) :
    ((align : ℤ) ∣ a.effective regs ↔ (align : ℤ) ∣ regs r) ∧
      (r = .rsp → (align : ℤ) ∣ f.checkedDepth align) := by
  simp only [stackAddressAligned, Bool.and_eq_true, Bool.or_eq_true] at h
  obtain ⟨⟨hindex, hdisp⟩, hpointer⟩ := h
  have hindex : a.index = none := Option.isNone_iff_eq_none.mp hindex
  have hdisp : (align : ℤ) ∣ a.disp := Int.dvd_of_emod_eq_zero (by simpa [isAligned] using hdisp)
  constructor
  · rw [Address.effective, hbase, hindex]
    simp only [Option.map_some, Option.getD_some, Option.map_none, Option.getD_none, add_zero]
    exact (Int.dvd_add_left hdisp)
  · rintro rfl
    refine dvd_checkedDepth (hpointer.resolve_left ?_)
    simp [hbase, Register.family, Register.rsp]

section Planned

variable {f : SourceFunction} {slots : List ArgSlot} {reserve : ℕ} {l : FrameLayout}

/-- The frame base of a body is a multiple of every alignment that an accepted access to the stack
requires. -/
lemma dvd_start_of_access (hf : f.IsRead) (hplain : ∀ i ∈ f.instructions, i.IsPlain)
    (hplan : f.planFrame slots reserve = .ok l) {i : Instruction} (hi : i ∈ f.instructions)
    {a : Address} (ha : a ∈ i.addresses) (hstack : a.isStack = true) {m : ℕ}
    (hm : requiredAlignment i a = 2 ^ m) (sp : ℤ) : (2 : ℤ) ^ m ∣ l.start sp := by
  obtain ⟨⟨n, -, halign⟩, hall⟩ := planFrame_align hf hplain hplan
  have hle := (hall i hi a ha hstack (by rw [hm]; positivity)).2
  have hdvd : (2 : ℤ) ^ m ∣ l.align := by
    rw [hm, halign] at hle
    rw [halign]
    refine pow_dvd_pow 2 ?_
    exact (pow_le_pow_iff_right₀ (show (1 : ℤ) < 2 by norm_num)).mp (by exact_mod_cast hle)
  rw [FrameLayout.start, if_pos (framed_of_isStack hplan hi ha hstack)]
  exact hdvd.trans (Dvd.intro_left _ rfl)

/-- An access that is refused is one that is not aligned. -/
lemma isAlignment_of_noteAlignment {align : ℤ} {p : Instruction × Address} {e : Fault}
    (h : noteAlignment f align p = .error e) : e.IsAlignment := by
  unfold noteAlignment at h
  dsimp only at h
  split_ifs at h
  exact ⟨_, (Except.error.inj h).symm, rfl⟩

/-- A body that is refused has something that is not aligned, or its sizes cannot be written. -/
lemma isAlignment_of_planFrame (hf : f.IsTallied) (hplain : ∀ i ∈ f.instructions, i.IsPlain)
    {e : Fault} (h : f.planFrame slots reserve = .error e) :
    e.IsAlignment ∨ e = .stop .numberUnwritable := by
  have hdynamic : f.dynamic = none := by
    cases hd : f.dynamic with
    | none => rfl
    | some i =>
      obtain ⟨hi, hstep⟩ := hf.dynamic i hd
      exact absurd (i.stackMove_of_unknown hstep) (hplain i hi)
  unfold SourceFunction.planFrame at h
  simp only [hdynamic] at h
  split at h
  · obtain rfl := Except.error.inj h
    exact .inl ⟨_, rfl, rfl⟩
  · rcases bind_eq_error.mp h with h | ⟨align, -, h⟩
    · obtain ⟨p, -, c, hp⟩ := exists_of_foldlM_eq_error h
      exact .inl (isAlignment_of_noteAlignment hp)
    · split at h
      · cases h
      · exact .inr (Except.error.inj h).symm

end Planned

/-- Of a body whose frame is planned, an access that requires an alignment is aligned if it is based
on the frame pointer while that holds the frame base; if it is based on the stack pointer, exactly
when the stack pointer is at the depth for which it was checked, up to a multiple of the alignment.
A body whose frame is not planned has an access that is not accepted or locals that are not whole
words. -/
theorem stackAccess_aligned_iff {text : String} {records : List Record}
    {functions : List SourceFunction} {f : SourceFunction} {slots : List ArgSlot} {reserve : ℕ}
    (hread : Source.readUnit text = .ok records)
    (hextract : extractFunctions records = .ok functions) (hf : f ∈ functions)
    (hplain : ∀ i ∈ f.instructions, i.IsPlain) :
    (∀ l, f.planFrame slots reserve = .ok l →
      ∀ sp regs, SourceRun f.instructions (l.start sp) regs →
        ∀ k i, f.instructions[k]? = some i → ∀ a ∈ i.addresses, ∀ m : ℕ,
          requiredAlignment i a = 2 ^ m →
          (a.base = some .rbp → regs k .rbp = l.start sp → (2 : ℤ) ^ m ∣ a.effective (regs k)) ∧
          (a.base = some .rsp →
            ((2 : ℤ) ^ m ∣ a.effective (regs k) ↔
              (2 : ℤ) ^ m ∣ stackPointer (f.instructions.take k) 0 + f.checkedDepth (2 ^ m)))) ∧
    ∀ e, f.planFrame slots reserve = .error e → e.IsAlignment ∨ e = .stop .numberUnwritable := by
  have hfread := extractFunctions_isRead hread hextract hf
  refine ⟨?_, fun e => isAlignment_of_planFrame hfread.tallied hplain⟩
  intro l hplan sp regs hrun k i hk a ha m hm
  have hi := List.mem_of_getElem? hk
  have hchecked : a.isStack = true → stackAddressAligned f a (2 ^ m) = true := by
    intro hstack
    rw [← hm]
    exact ((planFrame_align hfread hplain hplan).2 i hi a ha hstack (by rw [hm]; positivity)).1
  constructor
  · intro hbase hframe
    have hstack : a.isStack = true := by rw [Address.isStack, hbase]; rfl
    have heffective := (effective_of_aligned (hchecked hstack) hbase (regs k)).1
    push_cast at heffective
    rw [heffective, hframe]
    exact dvd_start_of_access hfread hplain hplan hi ha hstack hm sp
  · intro hbase
    have hstack : a.isStack = true := by rw [Address.isStack, hbase]; rfl
    obtain ⟨heffective, hdepth⟩ := effective_of_aligned (hchecked hstack) hbase (regs k)
    have hdepth := hdepth rfl
    push_cast at heffective hdepth
    have hlength : k ≤ f.instructions.length := (List.getElem?_eq_some_iff.mp hk).1.le
    have hstart := dvd_start_of_access hfread hplain hplan hi ha hstack hm sp
    have hclass := stackPointer_modEq (f.instructions.take k) (Int.modEq_zero_iff_dvd.mpr hstart)
    rw [heffective, hrun.stack_eq hplain hlength, hclass.dvd_iff, Int.dvd_add_left hdepth]

/-- A body that stores a vector once it has taken all of its stack. -/
theorem stackAccess_aligned_iff_of_store :
    let text := String.join [
      "f: push rbp\n", "mov rbp, rsp\n", "push rbx\n", "sub rsp, 40\n",
      "movaps xmmword ptr [rsp + 16], xmm0\n", "leave\n", "ret\n"]
    let l : FrameLayout := { locals := 40, pushes := 1 }
    ∃ records functions, Source.readUnit text = .ok records ∧
      extractFunctions records = .ok functions ∧ ∃ f ∈ functions,
        (∀ i ∈ f.instructions, i.IsPlain) ∧ f.planFrame [] 0 = .ok l ∧
        ∀ sp regs, SourceRun f.instructions (l.start sp) regs →
          ∃ i, f.instructions[2]? = some i ∧ ∃ a ∈ i.addresses, requiredAlignment i a = 2 ^ 4 ∧
            (2 : ℤ) ^ 4 ∣ a.effective (regs 2) := by
  intro text l
  obtain ⟨records, functions, hread, hextract, f, hf, hplain, hplan, i, hi, a, ha, hm, hbase,
      hdepth⟩ :
      ∃ records functions, Source.readUnit text = .ok records ∧
        extractFunctions records = .ok functions ∧ ∃ f ∈ functions,
          (∀ i ∈ f.instructions, i.IsPlain) ∧ f.planFrame [] 0 = .ok l ∧
          ∃ i ∈ f.instructions[2]?, ∃ a ∈ i.addresses, requiredAlignment i a = 2 ^ 4 ∧
            a.base = some .rsp ∧
            (2 : ℤ) ^ 4 ∣ stackPointer (f.instructions.take 2) 0 + f.checkedDepth (2 ^ 4) :=
    exists_functions_of_any (by decide +kernel)
  refine ⟨records, functions, hread, hextract, f, hf, hplain, hplan, fun sp regs hrun => ?_⟩
  obtain ⟨haccess, -⟩ := stackAccess_aligned_iff hread hextract hf hplain
  obtain ⟨-, hiff⟩ := haccess l hplan sp regs hrun 2 i hi a ha 4 hm
  exact ⟨i, hi, a, ha, hm, (hiff hbase).mpr hdepth⟩

/-- A body that stores a vector before it has taken all of its stack. Its frame is planned, but the
stack pointer is eight bytes below a multiple of sixteen when the vector is stored. -/
theorem not_stackAccess_aligned :
    let text := String.join [
      "f: push rbp\n", "mov rbp, rsp\n", "sub rsp, 8\n", "movaps xmmword ptr [rsp], xmm0\n",
      "sub rsp, 8\n", "leave\n", "ret\n"]
    let l : FrameLayout := { locals := 16 }
    ∃ records functions, Source.readUnit text = .ok records ∧
      extractFunctions records = .ok functions ∧ ∃ f ∈ functions,
        (∀ i ∈ f.instructions, i.IsPlain) ∧ f.planFrame [] 0 = .ok l ∧
        ∃ regs, SourceRun f.instructions (l.start 1000) regs ∧
          (∀ k, regs k .rbp = l.start 1000) ∧
          ∃ i, f.instructions[1]? = some i ∧ ∃ a ∈ i.addresses, requiredAlignment i a = 16 ∧
            a.base = some .rsp ∧ ¬ (16 : ℤ) ∣ a.effective (regs 1) := by
  intro text l
  obtain ⟨records, functions, hread, hextract, f, hf, hplain, hplan, i, hi, a, ha, hm, hbase,
      hdvd⟩ :
      ∃ records functions, Source.readUnit text = .ok records ∧
        extractFunctions records = .ok functions ∧ ∃ f ∈ functions,
          (∀ i ∈ f.instructions, i.IsPlain) ∧ f.planFrame [] 0 = .ok l ∧
          ∃ i ∈ f.instructions[1]?, ∃ a ∈ i.addresses, requiredAlignment i a = 16 ∧
            a.base = some .rsp ∧ ¬ (16 : ℤ) ∣ a.effective fun r =>
              if r = .rsp then stackPointer (f.instructions.take 1) (l.start 1000)
              else l.start 1000 :=
    exists_functions_of_any (by decide +kernel)
  exact ⟨records, functions, hread, hextract, f, hf, hplain, hplan, _,
    sourceRun_stackPointer f.instructions (l.start 1000), fun _ => rfl, i, hi, a, ha, hm, hbase,
    hdvd⟩

end AsmBridge
