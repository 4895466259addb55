import AsmBridge.Proofs.Abi.Layout
import AsmBridge.Proofs.Function.Extraction
import AsmBridge.Proofs.Source.Addresses
import AsmBridge.Proofs.Stack.Run

/-!
# The base of a frame

The frame base is the largest multiple of the alignment of a layout that is not above the offset of
the base (`FrameLayout.baseAt`). For the functions of a unit the alignment of a planned layout is a
power of two that covers the alignment of every access to the stack (`planFrame_align`), and below
the base there is the whole room that the layout counts for the body (`room_le_baseAt`).
-/

namespace AsmBridge

/-- Where the stack pointer of a body begins: at the frame base, or without a frame where the caller
has left it. -/
def FrameLayout.start (l : FrameLayout) (sp : ℤ) : ℤ := if l.framed then l.baseAt sp else sp

/-- What holds of every function of a unit that is read. -/
structure SourceFunction.IsRead (f : SourceFunction) : Prop where
  tallied : f.IsTallied
  readable : ∀ i ∈ f.instructions, ∀ a ∈ i.addresses, a.IsReadable

/-- The functions of a unit. -/
lemma extractFunctions_isRead {text : String} {records : List Record}
    {functions : List SourceFunction} (hread : Source.readUnit text = .ok records)
    (hextract : extractFunctions records = .ok functions) {f : SourceFunction}
    (hf : f ∈ functions) : f.IsRead :=
  ⟨extractFunctions_isTallied hextract f hf,
    fun _ hi => readUnit_isReadable hread (mem_of_extractFunctions hextract hf hi)⟩

/-! ## The alignment of accesses -/

/-- The widest vector register of an instruction has 128 or 256 bits. -/
lemma vectorBits_eq (i : Instruction) : vectorBits i = 128 ∨ vectorBits i = 256 := by
  have hfold : ∀ (ws : List ℕ) (w : ℕ), (∀ v ∈ ws, v = 128 ∨ v = 256) → (w = 128 ∨ w = 256) →
      ws.foldl max w = 128 ∨ ws.foldl max w = 256 := by
    intro ws
    induction ws with
    | nil => exact fun w _ hw => hw
    | cons v ws ih =>
      intro w hws hw
      obtain ⟨hv, hws⟩ := List.forall_mem_cons.mp hws
      refine ih (max w v) hws ?_
      omega
  rw [vectorBits]
  generalize hws : i.operands.filterMap _ = ws
  have hmem : ∀ w ∈ ws, w = 128 ∨ w = 256 := by
    intro w hw
    rw [← hws] at hw
    obtain ⟨o, -, ho⟩ := List.mem_filterMap.mp hw
    cases o with
    | reg r => cases r <;> simp_all [Register.isVector, Register.bits]
    | _ => cases ho
  cases ws with
  | nil => exact .inl rfl
  | cons w ws =>
    obtain ⟨hw, hws⟩ := List.forall_mem_cons.mp hmem
    exact hfold ws (max 0 w) hws (by omega)

/-- The alignments that accesses require: powers of two, or less than what every frame has. -/
lemma requiredAlignment_eq {i : Instruction} {a : Address} (ha : a.IsReadable) :
    requiredAlignment i a ≤ 16 ∨ ∃ m, requiredAlignment i a = 2 ^ m := by
  rw [requiredAlignment]
  split_ifs
  · cases hbits : a.bits with
    | none =>
      rcases vectorBits_eq i with h | h <;> rw [Option.getD_none, h]
      · exact .inl le_rfl
      · exact .inr ⟨5, rfl⟩
    | some n =>
      have hn := ha.bits n hbits
      rw [Option.getD_some]
      simp only [Source.widthWords, List.map_cons, List.map_nil, List.mem_cons, List.not_mem_nil,
        or_false] at hn
      rcases hn with rfl | rfl | rfl | rfl | rfl | rfl | rfl | rfl | rfl | rfl
      all_goals first
        | exact .inl (by decide)
        | exact .inr ⟨5, rfl⟩
        | exact .inr ⟨6, rfl⟩
  · exact .inl le_rfl
  · exact .inl (Nat.zero_le _)

/-- The larger of such an alignment and of that of a frame is one of a frame again. -/
lemma exists_twoPow_max {a b : ℤ} (ha : ∃ m, 4 ≤ m ∧ a = 2 ^ m)
    (hb : b ≤ 16 ∨ ∃ m : ℕ, b = 2 ^ m) : ∃ m, 4 ≤ m ∧ max a b = 2 ^ m := by
  obtain ⟨m, hm, rfl⟩ := ha
  have hge : (2 : ℤ) ^ 4 ≤ 2 ^ m := pow_le_pow_right₀ (by norm_num) hm
  rcases hb with hle | ⟨n, rfl⟩
  · exact ⟨m, hm, max_eq_left (by omega)⟩
  · rcases le_total m n with hmn | hnm
    · exact ⟨n, hm.trans hmn, max_eq_right (pow_le_pow_right₀ (by norm_num) hmn)⟩
    · exact ⟨m, hm, max_eq_left (pow_le_pow_right₀ (by norm_num) hnm)⟩

/-- One access more leaves a power of two, from sixteen on. -/
lemma exists_twoPow_of_noteAlignment {f : SourceFunction} {align align' : ℤ}
    {p : Instruction × Address} (hp : p.2.IsReadable) (h : noteAlignment f align p = .ok align')
    (halign : ∃ m, 4 ≤ m ∧ align = 2 ^ m) : ∃ m, 4 ≤ m ∧ align' = 2 ^ m := by
  unfold noteAlignment at h
  dsimp only at h
  split_ifs at h
  · obtain rfl := Except.ok.inj h
    exact halign
  · obtain rfl := Except.ok.inj h
    refine exists_twoPow_max halign ?_
    exact_mod_cast requiredAlignment_eq (i := p.1) hp

/-- One access more is aligned, and no alignment is lost. -/
lemma noteAlignment_eq_ok {f : SourceFunction} {align align' : ℤ} {p : Instruction × Address}
    (h : noteAlignment f align p = .ok align') (hstack : p.2.isStack = true)
    (hrequired : requiredAlignment p.1 p.2 ≠ 0) :
    stackAddressAligned f p.2 (requiredAlignment p.1 p.2) = true ∧
      (requiredAlignment p.1 p.2 : ℤ) ≤ align' := by
  unfold noteAlignment at h
  dsimp only at h
  split_ifs at h with hnone haligned
  · simp [hstack, hrequired] at hnone
  · rw [← Except.ok.inj h]
    exact ⟨haligned, le_max_right _ _⟩

/-- The alignment of a row of accesses is a power of two, and every access to the stack that
requires an alignment is aligned to it. -/
lemma noteAlignments_spec {f : SourceFunction} {ps : List (Instruction × Address)}
    {align align' : ℤ} (hps : ∀ p ∈ ps, p.2.IsReadable)
    (h : ps.foldlM (noteAlignment f) align = .ok align') (halign : ∃ m, 4 ≤ m ∧ align = 2 ^ m) :
    (∃ m, 4 ≤ m ∧ align' = 2 ^ m) ∧ align ≤ align' ∧
      ∀ p ∈ ps, p.2.isStack = true → requiredAlignment p.1 p.2 ≠ 0 →
        stackAddressAligned f p.2 (requiredAlignment p.1 p.2) = true ∧
          (requiredAlignment p.1 p.2 : ℤ) ≤ align' := by
  induction ps generalizing align with
  | nil =>
    obtain rfl := pure_eq_ok.mp h
    exact ⟨halign, le_rfl, by simp⟩
  | cons p ps ih =>
    rw [List.foldlM_cons] at h
    obtain ⟨align₁, hp, h⟩ := bind_eq_ok.mp h
    obtain ⟨hpread, hpsread⟩ := List.forall_mem_cons.mp hps
    obtain ⟨hpow, hle, hall⟩ := ih hpsread h (exists_twoPow_of_noteAlignment hpread hp halign)
    refine ⟨hpow, (noteAlignment_ge hp).trans hle, ?_⟩
    intro p' hp' hstack hrequired
    rcases List.mem_cons.mp hp' with rfl | hp'
    · obtain ⟨haligned, hle'⟩ := noteAlignment_eq_ok hp hstack hrequired
      exact ⟨haligned, hle'.trans hle⟩
    · exact hall p' hp' hstack hrequired

/-! ## Planned frames -/

/-- The alignment that the set-up of a plain body notes is zero or a power of two. -/
lemma SourceFunction.IsTallied.exists_twoPow {f : SourceFunction} (h : f.IsTallied)
    (hplain : ∀ i ∈ f.instructions, i.IsPlain) : f.realign = 0 ∨ ∃ m : ℕ, f.realign = 2 ^ m := by
  refine h.realign.imp_right ?_
  rintro ⟨i, hi, hmasks⟩
  exact i.exists_twoPow_of_mask (hmasks.stackMove_eq (hplain i hi))

/-- The frame of a plain body is aligned to a power of two, to which every access to the stack that
requires an alignment is aligned. -/
lemma planFrame_align {f : SourceFunction} {slots : List ArgSlot} {reserve : ℕ} {l : FrameLayout}
    (hf : f.IsRead) (hplain : ∀ i ∈ f.instructions, i.IsPlain)
    (h : f.planFrame slots reserve = .ok l) :
    (∃ m, 4 ≤ m ∧ l.align = 2 ^ m) ∧
      ∀ i ∈ f.instructions, ∀ a ∈ i.addresses, a.isStack = true → requiredAlignment i a ≠ 0 →
        stackAddressAligned f a (requiredAlignment i a) = true ∧
          (requiredAlignment i a : ℤ) ≤ l.align := by
  obtain ⟨-, align, halign, rfl⟩ := SourceFunction.planFrame_eq h
  have hreadable : ∀ p ∈ f.addresses, p.2.IsReadable := by
    intro p hp
    obtain ⟨i, hi, hpi⟩ := List.mem_flatMap.mp hp
    obtain ⟨a, ha, rfl⟩ := List.mem_map.mp hpi
    exact hf.readable i hi a ha
  obtain ⟨hpow, -, hall⟩ := noteAlignments_spec hreadable halign ⟨4, le_rfl, rfl⟩
  constructor
  · refine exists_twoPow_max hpow ?_
    rcases hf.tallied.exists_twoPow hplain with hzero | ⟨n, hn⟩
    · exact .inl (by rw [hzero]; decide)
    · exact .inr ⟨n, by exact_mod_cast hn⟩
  · intro i hi a ha hstack hrequired
    have hmem : (i, a) ∈ f.addresses :=
      List.mem_flatMap.mpr ⟨i, hi, List.mem_map_of_mem ha⟩
    obtain ⟨haligned, hle⟩ := hall (i, a) hmem hstack hrequired
    exact ⟨haligned, hle.trans (le_max_left _ _)⟩

/-- Without a frame no instruction has to do with the stack. -/
lemma usesStack_of_unframed {f : SourceFunction} {spills reserve : ℕ}
    (h : f.needsFrame spills reserve = false) {i : Instruction} (hi : i ∈ f.instructions) :
    SourceFunction.usesStack i = false := by
  simp only [SourceFunction.needsFrame, Bool.or_eq_false_iff] at h
  exact Bool.eq_false_iff.mpr (List.any_eq_false.mp h.2 i hi)

/-- Without a frame the body leaves the stack pointer alone and calls nothing. -/
lemma keep_of_unframed {f : SourceFunction} {spills reserve : ℕ}
    (h : f.needsFrame spills reserve = false) {i : Instruction} (hi : i ∈ f.instructions)
    (hplain : i.IsPlain) : i.stackMove = .keep ∧ i.isCall = false := by
  have huses := usesStack_of_unframed h hi
  simp only [SourceFunction.usesStack, Bool.or_eq_false_iff, beq_eq_false_iff_ne, ne_eq,
    List.any_eq_false] at huses
  obtain ⟨⟨⟨hpush, hpop⟩, hcall⟩, hregisters⟩ := huses
  refine ⟨?_, hcall⟩
  rcases i.stackMove_cases with ⟨amount, hoperands, -, -⟩ | hmove
  · have hmem : .rsp ∈ i.registers := by
      rw [Instruction.registers, hoperands]
      exact List.mem_append_left _ List.mem_cons_self
    exact absurd rfl (hregisters _ hmem)
  · rw [Instruction.IsPlain, hmove] at hplain
    rw [hmove]
    unfold Instruction.otherMove at hplain ⊢
    split_ifs at hplain ⊢ with hwrite
    · exact absurd rfl hplain
    · rfl

/-- A body with an access to the stack has a frame. -/
lemma framed_of_isStack {f : SourceFunction} {slots : List ArgSlot} {reserve : ℕ}
    {l : FrameLayout} (h : f.planFrame slots reserve = .ok l) {i : Instruction}
    (hi : i ∈ f.instructions) {a : Address} (ha : a ∈ i.addresses) (hstack : a.isStack = true) :
    l.framed = true := by
  obtain ⟨-, align, -, rfl⟩ := SourceFunction.planFrame_eq h
  by_contra hunframed
  have huses := usesStack_of_unframed (Bool.eq_false_iff.mpr hunframed) hi
  simp only [SourceFunction.usesStack, Bool.or_eq_false_iff, List.any_eq_false] at huses
  obtain ⟨o, ho, hoa⟩ := List.mem_filterMap.mp ha
  cases o with
  | mem a' =>
    obtain rfl := Option.some.inj hoa
    cases hbase : a'.base with
    | none => simp [Address.isStack, hbase] at hstack
    | some r =>
      have hfamily : r.family = .rsp ∨ r.family = .rbp := by
        simpa [Address.isStack, hbase] using hstack
      have hrip : r ≠ .rip := by
        rintro rfl
        rcases hfamily with h | h <;> cases h
      have hmem : r ∈ i.registers := by
        refine List.mem_flatMap.mpr ⟨.mem a', ho, ?_⟩
        simp [Operand.registers, Address.registers, hbase, hrip]
      exact huses.2 r hmem (by simpa using hfamily)
  | _ => cases hoa

end AsmBridge
