import AsmBridge.Proofs.Function.Teardown
import AsmBridge.Proofs.Outcome
import Mathlib.Order.MinMax

/-!
# What a function says of its stack

While a function is read, what its instructions do to the stack pointer is tallied.
`SourceFunction.IsTallied` says what the tally of a function has to do with the instructions it
keeps, and `extractFunctions_isTallied` that every function of a unit has such a tally: the constant
amounts are summed over the whole body, while an alignment is noted only if some instruction of the
body asks for it.
-/

namespace AsmBridge

namespace Instruction

/-- The constant amount by which an adjustment of the stack pointer lowers it. -/
def growth (i : Instruction) : ℕ :=
  match Draft.stackStep i with
  | .constant n => n.toNat
  | _ => 0

/-- The instruction rounds the stack pointer down to a multiple of the number, if that is a power of
two. -/
def Masks (i : Instruction) (align : ℕ) : Prop :=
  ∃ v < 0, i.isExactly "and" [.reg .rsp, .imm v] = true ∧ align = (-v).toNat

end Instruction

/-- The tally of a function fits the instructions of its body. -/
structure SourceFunction.IsTallied (f : SourceFunction) : Prop where
  locals : f.locals = (f.instructions.map (·.growth)).sum
  realign : f.realign = 0 ∨ ∃ i ∈ f.instructions, i.Masks f.realign
  dynamic : ∀ i ∈ f.dynamic, i ∈ f.instructions ∧ Draft.stackStep i = .unknown

/-- What reading one instruction of a body changes of a draft besides the body. -/
structure Draft.Scans (d : Draft) (i : Instruction) (e : Draft) : Prop where
  label : e.function.label = d.function.label
  body : e.function.body = d.function.body
  phase : e.phase = d.phase
  locals : e.function.locals = d.function.locals + i.growth
  realign : e.function.realign = d.function.realign ∨ i.Masks e.function.realign
  dynamic : ∀ j ∈ e.function.dynamic, j ∈ d.function.dynamic ∨ (j = i ∧ stackStep i = .unknown)

/-! ## One instruction -/

section Scan

variable {d e : Draft} {i : Instruction}

/-- What the set-up notes. -/
lemma scans_of_scanSetup (hstep : Draft.stackStep i = .none) (h : d.scanSetup i = .ok e) :
    d.Scans i e := by
  have hgrowth : i.growth = 0 := by rw [Instruction.growth, hstep]
  have hsame : ∀ {e : Draft}, e.function.label = d.function.label →
      e.function.body = d.function.body → e.phase = d.phase →
      e.function.locals = d.function.locals → e.function.dynamic = d.function.dynamic →
      (e.function.realign = d.function.realign ∨ i.Masks e.function.realign) → d.Scans i e := by
    intro e hlabel hbody hphase hlocals hdynamic hrealign
    refine ⟨hlabel, hbody, hphase, by rw [hlocals, hgrowth, Nat.add_zero], hrealign, ?_⟩
    rw [hdynamic]
    exact fun j hj => .inl hj
  rw [Draft.scanSetup] at h
  split_ifs at h with hsetup hpush hand
  · obtain rfl := Except.ok.inj h
    exact hsame rfl rfl rfl rfl rfl (.inl rfl)
  · obtain rfl := Except.ok.inj h
    exact hsame rfl rfl rfl rfl rfl (.inl rfl)
  · split at h
    · rename_i r v hoperands
      split_ifs at h with hmask
      · obtain rfl := Except.ok.inj h
        refine hsame rfl rfl rfl rfl rfl ?_
        rcases max_choice d.function.realign (-v).toNat with hmax | hmax
        · exact .inl hmax
        · refine .inr ⟨v, hmask.2, ?_, hmax⟩
          simp [Instruction.isExactly, beq_iff_eq.mp hand, hoperands, hmask.1]
      · obtain rfl := Except.ok.inj h
        exact hsame rfl rfl rfl rfl rfl (.inl rfl)
    · split_ifs at h
      obtain rfl := Except.ok.inj h
      exact hsame rfl rfl rfl rfl rfl (.inl rfl)
    · obtain rfl := Except.ok.inj h
      exact hsame rfl rfl rfl rfl rfl (.inl rfl)
  · obtain rfl := Except.ok.inj h
    exact hsame rfl rfl rfl rfl rfl (.inl rfl)

/-- What is noted of an instruction. -/
lemma scans_of_scan (h : d.scan i = .ok e) : d.Scans i e := by
  rw [Draft.scan] at h
  split at h
  · rename_i n hstep
    obtain rfl := Except.ok.inj h
    exact ⟨rfl, rfl, rfl, by simp [Instruction.growth, hstep], .inl rfl, fun j hj => .inl hj⟩
  · rename_i hstep
    obtain rfl := Except.ok.inj h
    refine ⟨rfl, rfl, rfl, by simp [Instruction.growth, hstep], .inl rfl, ?_⟩
    intro j hj
    cases hd : d.function.dynamic with
    | none =>
      rw [hd] at hj
      obtain rfl := Option.some.inj hj
      exact .inr ⟨rfl, hstep⟩
    | some j' =>
      rw [hd] at hj
      exact .inl hj
  · rename_i hstep
    exact scans_of_scanSetup hstep h

end Scan

/-! ## The instructions of a body -/

/-- Only additions and subtractions are adjustments. -/
lemma stackStep_eq_none {i : Instruction} (hsub : i.mnemonic ≠ "sub") (hadd : i.mnemonic ≠ "add") :
    Draft.stackStep i = .none := by
  rw [Draft.stackStep, if_neg]
  simp [hsub, hadd]

/-- A return is no adjustment, nor is an instruction of a teardown. -/
lemma stackStep_of_return {i : Instruction} (h : i.tearsDown = true ∨ i.isRet = true) :
    Draft.stackStep i = .none := by
  rcases h with h | h
  · rcases i.mnemonic_of_tearsDown h with h | h | h <;> apply stackStep_eq_none <;> simp [h]
  · have hret : i.mnemonic = "ret" := by simpa [Instruction.isRet] using h
    apply stackStep_eq_none <;> simp [hret]

/-- Neither of them rounds the stack pointer. -/
lemma not_masks_of_return {i : Instruction} {align : ℕ}
    (h : i.tearsDown = true ∨ i.isRet = true) : ¬ i.Masks align := by
  rintro ⟨v, -, hand, -⟩
  have hand := Instruction.mnemonic_of_isExactly hand
  rcases h with h | h
  · rcases i.mnemonic_of_tearsDown h with h | h | h <;> simp [h] at hand
  · simp [Instruction.isRet, hand] at h

/-- A tally that fits the instructions of one body fits those of another in which all adjustments
and masks of the first remain. -/
lemma SourceFunction.IsTallied.transfer {f g : SourceFunction} (h : f.IsTallied)
    (hlocals : g.locals = f.locals) (hrealign : g.realign = f.realign)
    (hdynamic : ∀ i ∈ g.dynamic, i ∈ f.dynamic)
    (hsum : (g.instructions.map (·.growth)).sum = (f.instructions.map (·.growth)).sum)
    (hmem : ∀ i ∈ f.instructions, i.tearsDown = false → i ∈ g.instructions) : g.IsTallied := by
  obtain ⟨hl, hr, hd⟩ := h
  refine ⟨by rw [hlocals, hl, hsum], ?_, ?_⟩
  · rw [hrealign]
    refine hr.imp_right ?_
    rintro ⟨i, hi, hmasks⟩
    have htears : i.tearsDown = false :=
      Bool.eq_false_iff.mpr fun h => not_masks_of_return (.inl h) hmasks
    exact ⟨i, hmem i hi htears, hmasks⟩
  · intro i hi
    obtain ⟨hif, hstep⟩ := hd i (hdynamic i hi)
    have htears : i.tearsDown = false :=
      Bool.eq_false_iff.mpr fun h => by
        rw [stackStep_of_return (.inl h)] at hstep
        cases hstep
    exact ⟨hmem i hif htears, hstep⟩

section Draft

variable {d e : Draft}

/-- An instruction of a body. -/
lemma isTallied_of_instruction {i : Instruction} (hd : d.function.IsTallied)
    (h : d.instruction i = .ok e) : e.function.IsTallied := by
  obtain ⟨d', hscan, h⟩ := bind_eq_ok.mp h
  obtain ⟨-, hbody, -, hlocals, hrealign, hdynamic⟩ := scans_of_scan hscan
  split at h
  · rename_i hret
    have hstep := stackStep_of_return (.inr hret)
    rw [Draft.close] at h
    split at h
    · rename_i rest hrest
      obtain rfl := Except.ok.inj h
      have ht := withoutTeardown_of_search hrest
      rw [hbody] at ht
      -- A return adds nothing to the tally, and its teardown takes nothing away.
      have hgrowth : ∀ j : Instruction, j.tearsDown = true → j.growth = 0 := by
        intro j hj
        rw [Instruction.growth, stackStep_of_return (.inl hj)]
      refine hd.transfer ?_ ?_ ?_ ?_ ?_
      · rw [hlocals, Instruction.growth, hstep, Nat.add_zero]
      · exact hrealign.resolve_right (not_masks_of_return (.inr hret))
      · intro j hj
        refine (hdynamic j hj).resolve_right ?_
        rintro ⟨-, hunknown⟩
        rw [hstep] at hunknown
        cases hunknown
      · have hsum := ht.sum_map hgrowth
        rw [instructionsOf_reverse, instructionsOf_reverse, List.map_reverse, List.map_reverse,
          List.sum_reverse, List.sum_reverse] at hsum
        exact hsum
      · intro j hj htears
        have hmem := ht.mem (j := j) (by rw [instructionsOf_reverse]; exact List.mem_reverse.mpr hj)
          htears
        rw [instructionsOf_reverse] at hmem
        exact List.mem_reverse.mp hmem
    · cases h
  · obtain rfl := pure_eq_ok.mp h
    have hinstructions : (d'.push (.instruction i)).function.instructions =
        i :: d.function.instructions := by
      rw [SourceFunction.instructions, SourceFunction.instructions, ← hbody]
      rfl
    refine ⟨?_, ?_, ?_⟩
    · rw [hinstructions, List.map_cons, List.sum_cons, ← hd.locals, Nat.add_comm]
      exact hlocals
    · rw [hinstructions]
      rcases hrealign with heq | hmasks
      · rcases hd.realign with hzero | ⟨j, hj, hmasks⟩
        · exact .inl (heq.trans hzero)
        · exact .inr ⟨j, List.mem_cons_of_mem _ hj, heq ▸ hmasks⟩
      · exact .inr ⟨i, List.mem_cons_self, hmasks⟩
    · rw [hinstructions]
      intro j hj
      rcases hdynamic j hj with hj | ⟨rfl, hstep⟩
      · obtain ⟨hmem, hstep⟩ := hd.dynamic j hj
        exact ⟨List.mem_cons_of_mem _ hmem, hstep⟩
      · exact ⟨List.mem_cons_self, hstep⟩

/-- What is no instruction changes no tally. -/
lemma SourceFunction.IsTallied.of_instructions_eq {f g : SourceFunction} (h : f.IsTallied)
    (hlocals : g.locals = f.locals) (hrealign : g.realign = f.realign)
    (hdynamic : g.dynamic = f.dynamic) (hinstructions : g.instructions = f.instructions) :
    g.IsTallied := by
  refine h.transfer hlocals hrealign (by simp [hdynamic]) (by rw [hinstructions]) ?_
  rw [hinstructions]
  exact fun i hi _ => hi

/-- A record of a function. -/
lemma isTallied_of_record {r : Record} (hd : d.function.IsTallied) (h : d.record r = .ok e) :
    e.function.IsTallied := by
  cases r with
  | instruction i =>
    rw [Draft.record] at h
    split at h
    · rw [Draft.prologue] at h
      split_ifs at h <;> rw [← Except.ok.inj h] <;> exact hd
    · exact isTallied_of_instruction hd h
  | label l =>
    rw [Draft.record] at h
    obtain rfl := Except.ok.inj h
    split <;> exact SourceFunction.IsTallied.of_instructions_eq hd rfl rfl rfl rfl
  | directive r =>
    rw [Draft.record] at h
    obtain rfl := Except.ok.inj h
    exact SourceFunction.IsTallied.of_instructions_eq hd rfl rfl rfl rfl

/-- A finished function. -/
lemma isTallied_of_finish {boundary : Boundary} {f : SourceFunction} (hd : d.function.IsTallied)
    (h : d.finish boundary = .ok f) : f.IsTallied := by
  rw [Draft.finish] at h
  split_ifs at h
  obtain rfl := Except.ok.inj h
  have hinstructions : SourceFunction.instructions
      { d.function with body := d.function.body.reverse } = d.function.instructions.reverse :=
    instructionsOf_reverse _
  refine hd.transfer rfl rfl (fun i hi => hi) ?_ ?_
  · rw [hinstructions, List.map_reverse, List.sum_reverse]
  · rw [hinstructions]
    exact fun i hi _ => List.mem_reverse.mpr hi

end Draft

/-! ## The functions of a unit -/

/-- What has been read of a unit is tallied. -/
def ExtractState.IsTallied (s : ExtractState) : Prop :=
  (∀ f ∈ s.done, f.IsTallied) ∧ ∀ d ∈ s.draft, d.function.IsTallied

/-- A function that has only begun. -/
lemma isTallied_begin (l : Label) : (Draft.begin l).function.IsTallied :=
  ⟨rfl, .inl rfl, by simp [Draft.begin]⟩

/-- The function that a record begins, without any of its instructions. -/
def Record.begun? : Record → Option Draft
  | .label l => if l.isFunction then some (.begin l) else none
  | _ => none

section State

variable {s s' : ExtractState}

/-- A record that ends a function. -/
lemma endDraft_eq_ok {d : Draft} {r : Record} (h : s.endDraft d r = .ok s') :
    d.inPrologue = false ∧ ∃ f, d.finish (.line (r.line.getD 0)) = .ok f ∧
      s' = { done := f :: s.done, draft := r.begun? } := by
  unfold ExtractState.endDraft at h
  cases hphase : d.inPrologue with
  | true =>
    rw [if_pos hphase] at h
    cases h
  | false =>
    rw [if_neg (Bool.eq_false_iff.mp hphase)] at h
    obtain ⟨f, hf, h⟩ := bind_eq_ok.mp h
    refine ⟨rfl, f, hf, (pure_eq_ok.mp h).symm.trans ?_⟩
    cases r <;> rfl

/-- The end of a unit. -/
lemma finish_eq_ok {functions : List SourceFunction} (h : s.finish = .ok functions) :
    (s.draft = none ∧ functions = s.done.reverse) ∨
      ∃ d f, s.draft = some d ∧ d.inPrologue = false ∧ d.finish .endOfInput = .ok f ∧
        functions = (f :: s.done).reverse := by
  unfold ExtractState.finish at h
  cases hd : s.draft with
  | none =>
    rw [hd] at h
    exact .inl ⟨rfl, (Except.ok.inj h).symm⟩
  | some d =>
    simp only [hd] at h
    split_ifs at h with hphase
    obtain ⟨f, hf, rfl⟩ := map_eq_ok.mp h
    exact .inr ⟨d, f, rfl, Bool.eq_false_iff.mpr hphase, hf, rfl⟩

/-- A record more. -/
lemma ExtractState.IsTallied.step {r : Record} (hs : s.IsTallied) (h : s.step r = .ok s') :
    s'.IsTallied := by
  obtain ⟨hdone, hdraft⟩ := hs
  have hbegun : ∀ d ∈ r.begun?, d.function.IsTallied := by
    intro d hd
    cases r with
    | label l =>
      rw [Record.begun?] at hd
      split at hd
      · obtain rfl := Option.some.inj hd
        exact isTallied_begin l
      · cases hd
    | directive r => cases hd
    | instruction i => cases hd
  unfold ExtractState.step at h
  cases hd : s.draft with
  | none =>
    simp only [hd] at h
    cases r with
    | label l =>
      obtain rfl := Except.ok.inj h
      split
      · refine ⟨hdone, ?_⟩
        rintro d ⟨⟩
        exact isTallied_begin l
      · exact ⟨hdone, hdraft⟩
    | directive r =>
      obtain rfl := Except.ok.inj h
      exact ⟨hdone, hdraft⟩
    | instruction i => cases h
  | some d =>
    have hd' := hdraft d hd
    simp only [hd] at h
    split at h
    · obtain ⟨-, f, hf, rfl⟩ := endDraft_eq_ok h
      exact ⟨List.forall_mem_cons.mpr ⟨isTallied_of_finish hd' hf, hdone⟩, hbegun⟩
    · obtain ⟨e, he, rfl⟩ := map_eq_ok.mp h
      refine ⟨hdone, ?_⟩
      rintro d' ⟨⟩
      exact isTallied_of_record hd' he

end State

/-- The functions of a unit are tallied. -/
lemma extractFunctions_isTallied {records : List Record} {functions : List SourceFunction}
    (h : extractFunctions records = .ok functions) : ∀ f ∈ functions, f.IsTallied := by
  obtain ⟨s, hfold, hfinish⟩ := bind_eq_ok.mp h
  obtain ⟨hdone, hdraft⟩ : s.IsTallied :=
    foldlM_induction ExtractState.IsTallied (fun _ _ _ hstep hs => hs.step hstep) hfold
      ⟨by simp, by simp⟩
  intro f hf
  rcases finish_eq_ok hfinish with ⟨-, rfl⟩ | ⟨d, g, hd, -, hg, rfl⟩
  · exact hdone f (List.mem_reverse.mp hf)
  · rcases List.mem_cons.mp (List.mem_reverse.mp hf) with rfl | hf
    · exact isTallied_of_finish (hdraft d hd) hg
    · exact hdone f hf

end AsmBridge
