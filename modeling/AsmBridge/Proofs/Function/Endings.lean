import AsmBridge.Proofs.Function.Extents
import AsmBridge.Proofs.Function.Stops

/-!
# How functions end

A function may end only where control does not run on: behind a return, a jump or a trap, with no
label in between, while directives do not count. Reading a function keeps track of this by its phase
(`phase_eq_ended_iff`). A unit in which control runs past the end of some extent is not divided, and
is reported with a structural defect unless it stops (`extractFunctions_stopsControl`). Returns are
asked for only where control runs on: a function that ends in a jump or a trap need not have any
(`not_extractFunctions_returns`).
-/

namespace AsmBridge

/-- Control does not run past the end of the records: the last of them besides directives is an
instruction that never lets it run on. -/
def StopsControl (rs : List Record) : Prop :=
  ∃ i, (rs.filter fun r => !r.isDirective).getLast? = some (.instruction i) ∧
    Draft.isTerminator i = true

namespace BodyItem

def isDirective : BodyItem → Bool
  | .directive _ => true
  | _ => false

/-- Control does not run past the item: it is an epilogue, a jump or a trap. -/
def stopsControl : BodyItem → Bool
  | .epilogue _ => true
  | .instruction i => i.mnemonic == "jmp" || i.mnemonic == "ud2"
  | _ => false

end BodyItem

/-- Control does not run past the end of the body. -/
def SourceFunction.StopsControl (f : SourceFunction) : Prop :=
  ∃ b, (f.body.filter fun b => !b.isDirective).getLast? = some b ∧ b.stopsControl = true

/-! ## The records of a function -/

section Concat

variable (rs : List Record)

lemma not_stopsControl_nil : ¬ StopsControl [] := fun ⟨_, h, _⟩ => nomatch h

lemma stopsControl_concat_directive (d : Directive) :
    StopsControl (rs ++ [.directive d]) ↔ StopsControl rs := by
  simp [StopsControl, Record.isDirective, List.filter_append]

lemma not_stopsControl_concat_label (l : Label) : ¬ StopsControl (rs ++ [.label l]) := by
  simp [StopsControl, Record.isDirective, List.filter_append]

lemma stopsControl_concat_instruction (i : Instruction) :
    StopsControl (rs ++ [.instruction i]) ↔ Draft.isTerminator i = true := by
  simp [StopsControl, Record.isDirective, List.filter_append]

end Concat

namespace Draft

variable {d e : Draft} {i : Instruction}

lemma isTerminator_of_isRet (h : i.isRet = true) : isTerminator i = true := by
  rw [Instruction.isRet, beq_iff_eq] at h
  rw [isTerminator, h]
  rfl

/-- The instructions of a prologue let control run on. -/
lemma isTerminator_of_prologue (h : d.prologue i = .ok e) : isTerminator i = false := by
  rw [prologue] at h
  split_ifs at h with hmark hpush hmov
  · rw [isTerminator, hmark.2]
    rfl
  · rw [isTerminator, Instruction.mnemonic_of_isExactly hpush.2]
    rfl
  · rw [isTerminator, Instruction.mnemonic_of_isExactly hmov.2]
    rfl

/-- Before and in a prologue no function ends. -/
lemma phase_of_prologue (hd : d.phase ≠ .ended) (h : d.prologue i = .ok e) : e.phase ≠ .ended := by
  rw [prologue] at h
  split_ifs at h
  · obtain rfl := Except.ok.inj h
    exact hd
  · obtain rfl := Except.ok.inj h
    exact Phase.noConfusion
  · obtain rfl := Except.ok.inj h
    exact Phase.noConfusion

/-- In a prologue no function has ended. -/
lemma phase_of_inPrologue (h : d.inPrologue = true) : d.phase ≠ .ended := by
  intro hended
  rw [inPrologue, hended] at h
  cases h

/-- Behind an instruction of a body control has ended if the instruction never lets it run on. -/
lemma phase_of_instruction (h : d.instruction i = .ok e) :
    e.phase = .ended ↔ isTerminator i = true := by
  obtain ⟨d', hscan, h⟩ := bind_eq_ok.mp h
  split at h
  · rename_i hret
    rw [close] at h
    split at h
    · obtain rfl := Except.ok.inj h
      simp [isTerminator_of_isRet hret]
    · cases h
  · obtain rfl := pure_eq_ok.mp h
    cases isTerminator i <;> simp

/-- The last item of a body that control has ended in. -/
lemma stopsControl_of_instruction (h : d.instruction i = .ok e) (hended : e.phase = .ended) :
    ∃ b rest, e.function.body = b :: rest ∧ b.isDirective = false ∧ b.stopsControl = true := by
  have hterminator := (phase_of_instruction h).mp hended
  obtain ⟨d', hscan, h⟩ := bind_eq_ok.mp h
  split at h
  · rw [close] at h
    split at h
    · obtain rfl := Except.ok.inj h
      exact ⟨_, _, rfl, rfl, rfl⟩
    · cases h
  · rename_i hret
    obtain rfl := pure_eq_ok.mp h
    refine ⟨_, _, rfl, rfl, ?_⟩
    simpa [isTerminator, BodyItem.stopsControl, Instruction.isRet] using
      (by simpa [isTerminator] using hterminator : _ ∨ _).resolve_left
        (by simpa [Instruction.isRet] using hret)

end Draft

section Read

variable {l : Label} {rs : List Record} {d : Draft}

/-- While a function is read, its phase tells whether control runs past what has been read. -/
lemma phase_eq_ended_iff (h : rs.foldlM Draft.record (.begin l) = .ok d) :
    d.phase = .ended ↔ StopsControl rs := by
  induction rs using List.reverseRecOn generalizing d with
  | nil =>
    obtain rfl := pure_eq_ok.mp h
    exact iff_of_false Phase.noConfusion not_stopsControl_nil
  | append_singleton rs r ih =>
    obtain ⟨e, he, h⟩ := foldlM_append_eq_ok.mp h
    obtain ⟨d', hstep, h⟩ := foldlM_cons_eq_ok.mp h
    obtain rfl := pure_eq_ok.mp h
    cases r with
    | directive r =>
      obtain rfl := Except.ok.inj hstep
      exact (ih he).trans (stopsControl_concat_directive rs r).symm
    | label l' =>
      refine iff_of_false ?_ (not_stopsControl_concat_label rs l')
      obtain rfl := Except.ok.inj hstep
      split
      · exact Phase.noConfusion
      · assumption
    | instruction i =>
      rw [stopsControl_concat_instruction]
      rw [Draft.record] at hstep
      split at hstep
      · rename_i hphase
        refine iff_of_false (Draft.phase_of_prologue (Draft.phase_of_inPrologue hphase) hstep) ?_
        exact Bool.eq_false_iff.mp (Draft.isTerminator_of_prologue hstep)
      · exact Draft.phase_of_instruction hstep

/-- The draft ends in an item that control does not run past, if it has ended. -/
def Draft.EndsRight (d : Draft) : Prop :=
  d.phase = .ended →
    ∃ b, (d.function.body.filter fun b => !b.isDirective).head? = some b ∧ b.stopsControl = true

/-- One record more. -/
lemma Draft.EndsRight.record {r : Record} {e : Draft} (hd : d.EndsRight)
    (h : d.record r = .ok e) : e.EndsRight := by
  cases r with
  | directive r =>
    obtain rfl := Except.ok.inj h
    intro hended
    obtain ⟨b, hb, hstops⟩ := hd hended
    exact ⟨b, by simpa [Draft.push, BodyItem.isDirective] using hb, hstops⟩
  | label l' =>
    obtain rfl := Except.ok.inj h
    intro hended
    split at hended
    · cases hended
    · rename_i hphase
      exact absurd hended hphase
  | instruction i =>
    intro hended
    rw [Draft.record] at h
    split at h
    · rename_i hphase
      exact absurd hended (Draft.phase_of_prologue (Draft.phase_of_inPrologue hphase) h)
    · obtain ⟨b, rest, hbody, hdirective, hstops⟩ := Draft.stopsControl_of_instruction h hended
      exact ⟨b, by simp [hbody, hdirective], hstops⟩

/-- A finished function has ended. -/
lemma phase_of_finish {boundary : Boundary} {f : SourceFunction} (hphase : d.inPrologue = false)
    (h : d.finish boundary = .ok f) : d.phase = .ended := by
  rw [Draft.finish] at h
  split_ifs at h with hrunning
  cases hp : d.phase with
  | ended => rfl
  | running => exact absurd hp hrunning
  | fresh => simp [Draft.inPrologue, hp] at hphase
  | pushed => simp [Draft.inPrologue, hp] at hphase

/-- Control does not run past the end of the records that a function is read of. -/
lemma IsReadFrom.stopsControl {f : SourceFunction} (h : IsReadFrom l rs f) : StopsControl rs := by
  obtain ⟨d, boundary, hd, hphase, hf⟩ := h
  exact (phase_eq_ended_iff hd).mp (phase_of_finish hphase hf)

/-- Control does not run past the end of a function. -/
lemma IsReadFrom.stopsControl_body {f : SourceFunction} (h : IsReadFrom l rs f) :
    f.StopsControl := by
  obtain ⟨d, boundary, hd, hphase, hf⟩ := h
  have hends : d.EndsRight := foldlM_induction Draft.EndsRight
    (fun _ _ _ hstep hd => hd.record hstep) hd (fun h => nomatch h)
  obtain ⟨b, hb, hstops⟩ := hends (phase_of_finish hphase hf)
  refine ⟨b, ?_, hstops⟩
  rw [Draft.finish] at hf
  split_ifs at hf
  obtain rfl := Except.ok.inj hf
  rw [List.filter_reverse, List.getLast?_reverse]
  exact hb

end Read

/-! ## The functions of a unit -/

/-- Of a divided unit each extent gives a function, which has as many epilogues as the extent has
returns, and control runs neither past the end of the extent nor past that of the function. A unit
with an extent that control runs past is not divided; whatever keeps a unit from being divided is a
defect of its structure, unless it stops. -/
theorem extractFunctions_stopsControl (records : List Record) :
    (∀ functions, extractFunctions records = .ok functions → ∃ es, Divided records es ∧
      List.Forall₂ (fun f e => IsExtracted f e ∧ f.StopsControl ∧ StopsControl e.records)
        functions es) ∧
    (∀ es, Divided records es → (∃ e ∈ es, ¬ StopsControl e.records) →
      ∃ fault, extractFunctions records = .error fault) ∧
    ∀ fault, extractFunctions records = .error fault →
      (∃ d, fault = .defect d ∧ d.defect.kind = .structural) ∨
        ∃ s, fault = .stop s ∧ StopsDivision records s := by
  refine ⟨?_, ?_, ?_⟩
  · intro functions h
    obtain ⟨es, hdivided, hfs⟩ := extractFunctions_eq_ok_iff.mp h
    exact ⟨es, hdivided, hfs.imp fun f e hf =>
      ⟨hf.isExtracted, hf.stopsControl_body, hf.stopsControl⟩⟩
  · rintro es hdivided ⟨e, he, hruns⟩
    cases h : extractFunctions records with
    | error fault => exact ⟨fault, rfl⟩
    | ok functions =>
      obtain ⟨f, -, hf⟩ :=
        exists_of_mem_right (hdivided.extractFunctions_eq_ok_iff.mp h) he
      exact absurd hf.stopsControl hruns
  · exact failsWith_extractFunctions records

/-- A function that returns in the middle and ends in a jump, and one that control runs past. -/
theorem extractFunctions_stopsControl_of_jump :
    let text := String.join [
      "f: push rbp\n", "mov rbp, rsp\n", "jmp .L2\n", ".L1: pop rbp\n", "ret\n", ".L2: dec rdi\n",
      "jmp .L1\n", ".size f, 9\n"]
    let l : Label := { name := "g", sect := some ".text" }
    let own : List Record := [
      .instruction { mnemonic := "push", operands := [.reg .rbp] },
      .instruction { mnemonic := "mov", operands := [.reg .rbp, .reg .rsp] },
      .instruction { mnemonic := "ud2" }, .label { name := ".L3", sect := some ".text" }]
    (∃ records functions es, Source.readUnit text = .ok records ∧
      extractFunctions records = .ok functions ∧ functions.map (·.returns) = [1] ∧
      Divided records es ∧
      List.Forall₂ (fun f e => IsExtracted f e ∧ f.StopsControl ∧ StopsControl e.records)
        functions es) ∧
    ∃ d, extractFunctions (.label l :: own) = .error (.defect d) ∧
      d.defect.kind = .structural := by
  intro text l own
  constructor
  · obtain ⟨records, functions, hread, hextract, hreturns⟩ :
        ∃ records functions, Source.readUnit text = .ok records ∧
          extractFunctions records = .ok functions ∧ functions.map (·.returns) = [1] :=
      exists_functions_of_any (by decide +kernel)
    obtain ⟨es, hdivided, hfs⟩ := (extractFunctions_stopsControl records).1 functions hextract
    exact ⟨records, functions, es, hread, hextract, hreturns, hdivided, hfs⟩
  · have hdivided : Divided (.label l :: own) [⟨l, own⟩] := by
      have h : Divided (.label l :: own ++ []) [⟨l, own⟩] :=
        .extent (by decide) (by decide +kernel) (by simp) .nil
      rwa [List.append_nil] at h
    obtain ⟨-, hrejected, hfault⟩ := extractFunctions_stopsControl (.label l :: own)
    obtain ⟨fault, h⟩ := hrejected _ hdivided
      ⟨_, List.mem_singleton_self _, not_stopsControl_concat_label (own.take 3) _⟩
    rcases hfault fault h with ⟨d, rfl, hkind⟩ | ⟨s, rfl, hstop⟩
    · exact ⟨d, h, hkind⟩
    · cases hstop with
      | mask hi hmask =>
        obtain ⟨_, hmask⟩ := hmask
        have hmnemonic : _ = "and" := Instruction.mnemonic_of_isExactly hmask
        rcases (by simpa [l, own] using hi : _ = _ ∨ _ = _ ∨ _ = _) with rfl | rfl | rfl <;>
          simp at hmnemonic
      | growth hgrowth => exact absurd hgrowth (by decide +kernel)

/-- A function that only loops. It is accepted without any return. -/
theorem not_extractFunctions_returns :
    let text := String.join ["f: push rbp\n", "mov rbp, rsp\n", ".L1: jmp .L1\n"]
    ∃ records functions, Source.readUnit text = .ok records ∧
      extractFunctions records = .ok functions ∧ ∃ f ∈ functions, f.returns = 0 := by
  intro text
  exact exists_functions_of_any (by decide +kernel)

end AsmBridge
