import AsmBridge.Proofs.Function.Tally

/-!
# Units that are not divided into functions

A unit that cannot be divided into functions has a defect of its structure, but for two exceptions:
an instruction that masks the stack pointer with a symbol, and adjustments of the stack pointer
whose sum has too many digits to be written. With these the unit is given up without a report
(`failsWith_extractFunctions`).
-/

namespace AsmBridge

/-- A number that is not greater than another one with few enough digits has few enough digits. -/
lemma isWritable_of_le {m n : ℕ} (hmn : m ≤ n) (hn : Text.isWritable n = true) :
    Text.isWritable m = true := by
  rw [Text.isWritable, decide_eq_true_eq] at hn ⊢
  exact lt_of_le_of_lt hmn hn

/-- The instruction rounds the stack pointer by a mask that is a symbol. -/
def Instruction.MasksBySymbol (i : Instruction) : Prop :=
  ∃ s, i.isExactly "and" [.reg .rsp, .sym s] = true

/-- The sum of all constant amounts by which the instructions of records lower the stack pointer. -/
def totalGrowth (rs : List Record) : ℕ := ((rs.filterMap (·.instruction?)).map (·.growth)).sum

/-- Why a unit is given up while it is divided into functions. -/
inductive StopsDivision (rs : List Record) : Stop → Prop
  /-- The stack pointer is masked with a symbol. -/
  | mask {i : Instruction} (hi : .instruction i ∈ rs) (h : i.MasksBySymbol) :
    StopsDivision rs .maskSymbolic
  /-- The stack is too large. -/
  | growth (h : Text.isWritable (totalGrowth rs) = false) : StopsDivision rs .numberUnwritable

/-- The fault is a defect of the structure of the unit, or the unit is given up with it while it is
divided. -/
def KeepsUndivided (rs : List Record) (e : Fault) : Prop :=
  (∃ d, e = .defect d ∧ d.defect.kind = .structural) ∨ ∃ s, e = .stop s ∧ StopsDivision rs s

lemma totalGrowth_cons (r : Record) (rs : List Record) :
    totalGrowth (r :: rs) = totalGrowth [r] + totalGrowth rs := by
  cases r with
  | instruction i => simp [totalGrowth, Record.instruction?]
  | _ => simp [totalGrowth, Record.instruction?]

namespace Draft

variable {d e : Draft} {rs : List Record}

/-- One record of a function adds no more to its locals than its own amount. -/
lemma locals_record_le {r : Record} (h : d.record r = .ok e) :
    e.function.locals ≤ d.function.locals + totalGrowth [r] := by
  cases r with
  | label l =>
    obtain rfl := Except.ok.inj h
    split <;> exact Nat.le_add_right _ _
  | directive r =>
    obtain rfl := Except.ok.inj h
    exact Nat.le_add_right _ _
  | instruction i =>
    have hgrowth : totalGrowth [.instruction i] = i.growth := by
      simp [totalGrowth, Record.instruction?]
    rw [hgrowth]
    rw [Draft.record] at h
    split at h
    · rw [Draft.prologue] at h
      split_ifs at h <;> obtain rfl := Except.ok.inj h <;> exact Nat.le_add_right _ _
    · obtain ⟨d', hscan, h⟩ := bind_eq_ok.mp h
      rw [← (scans_of_scan hscan).locals]
      split at h
      · rw [Draft.close] at h
        split at h
        · obtain rfl := Except.ok.inj h
          exact le_rfl
        · cases h
      · obtain rfl := pure_eq_ok.mp h
        exact le_rfl

/-- One record more. -/
lemma failsWith_record {r : Record} (hr : r ∈ rs) : FailsWith (KeepsUndivided rs) (d.record r) := by
  have hsetup : ∀ {i : Instruction}, .instruction i ∈ rs →
      FailsWith (KeepsUndivided rs) (d.scanSetup i) := by
    intro i hi
    unfold scanSetup
    dsimp only
    split_ifs with _ _ hand
    · exact failsWith_ok _
    · exact failsWith_ok _
    · split
      · split_ifs <;> exact failsWith_ok _
      · rename_i r s hoperands
        split_ifs with hr
        · refine failsWith_error (.inr ⟨_, rfl, .mask hi ⟨s, ?_⟩⟩)
          simp [Instruction.isExactly, beq_iff_eq.mp hand, hoperands, hr]
        · exact failsWith_ok _
      · exact failsWith_ok _
    · exact failsWith_ok _
  cases r with
  | label l => exact failsWith_ok _
  | directive r => exact failsWith_ok _
  | instruction i =>
    rw [record]
    split_ifs
    · unfold prologue
      split_ifs
      · exact failsWith_ok _
      · exact failsWith_ok _
      · exact failsWith_ok _
      · exact failsWith_error (.inl ⟨_, rfl, rfl⟩)
    · have hscan : FailsWith (KeepsUndivided rs) (d.scan i) := by
        unfold scan
        dsimp only
        split
        · exact failsWith_ok _
        · exact failsWith_ok _
        · exact hsetup hr
      refine hscan.bind fun d' _ => ?_
      split
      · unfold close
        split
        · exact failsWith_ok _
        · exact failsWith_error (.inl ⟨_, rfl, rfl⟩)
      · exact failsWith_ok _

/-- The end of a function. -/
lemma failsWith_finish (hd : d.function.locals ≤ totalGrowth rs) (boundary : Boundary) :
    FailsWith (KeepsUndivided rs) (d.finish boundary) := by
  unfold finish
  dsimp only
  split_ifs with hrunning _ hwritable
  · exact failsWith_error (.inl ⟨_, rfl, rfl⟩)
  · exact failsWith_error (.inl ⟨_, rfl, rfl⟩)
  · refine failsWith_error (.inr ⟨_, rfl, .growth ?_⟩)
    rw [Bool.eq_false_iff]
    intro htotal
    rw [isWritable_of_le hd htotal] at hwritable
    cases hwritable
  · exact failsWith_ok _

end Draft

namespace ExtractState

variable {s s' : ExtractState} {rs : List Record} {n : ℕ}

/-- The locals of the function that is being read are not greater than the number. -/
def Bounded (s : ExtractState) (n : ℕ) : Prop := ∀ d ∈ s.draft, d.function.locals ≤ n

/-- One record more. -/
lemma Bounded.step {r : Record} (hs : s.Bounded n) (h : s.step r = .ok s') :
    s'.Bounded (n + totalGrowth [r]) := by
  have hbegin : ∀ (l : Label) (m : ℕ), (Draft.begin l).function.locals ≤ m := fun _ m => m.zero_le
  unfold ExtractState.step at h
  split at h
  · rename_i hnone
    cases r with
    | label l =>
      obtain rfl := Except.ok.inj h
      split
      · rintro d ⟨⟩
        exact hbegin _ _
      · intro d hd
        rw [hnone] at hd
        cases hd
    | directive _ =>
      obtain rfl := Except.ok.inj h
      intro d hd
      rw [hnone] at hd
      cases hd
    | instruction _ => cases h
  · rename_i d hd
    split at h
    · unfold endDraft at h
      split at h
      · cases h
      · obtain ⟨f, -, h⟩ := bind_eq_ok.mp h
        obtain rfl := pure_eq_ok.mp h
        intro d hd
        dsimp only at hd
        split at hd
        · split at hd
          · cases hd
            exact hbegin _ _
          · cases hd
        · cases hd
    · obtain ⟨d', hrecord, rfl⟩ := map_eq_ok.mp h
      rintro d'' ⟨⟩
      exact (Draft.locals_record_le hrecord).trans (Nat.add_le_add_right (hs d hd) _)

/-- The rest of a unit. -/
lemma failsWith_steps {rest : List Record} (hs : s.Bounded n) (hrest : ∀ r ∈ rest, r ∈ rs)
    (hn : n + totalGrowth rest ≤ totalGrowth rs) :
    FailsWith (KeepsUndivided rs) (rest.foldlM step s >>= finish) := by
  induction rest generalizing s n with
  | nil =>
    unfold finish
    refine FailsWith.bind (failsWith_ok _) fun s' hs' => ?_
    obtain rfl := pure_eq_ok.mp hs'
    split
    · exact failsWith_ok _
    · rename_i d hd
      split_ifs
      · exact failsWith_error (.inl ⟨_, rfl, rfl⟩)
      · exact (Draft.failsWith_finish ((hs d hd).trans ((Nat.le_add_right _ _).trans hn)) _).map _
  | cons r rest ih =>
    obtain ⟨hr, hrest⟩ := List.forall_mem_cons.mp hrest
    rw [totalGrowth_cons] at hn
    rw [List.foldlM_cons, bind_assoc]
    refine FailsWith.bind ?_ fun s' hs' => ih (hs.step hs') hrest (by omega)
    unfold step
    split
    · cases r with
      | instruction i => exact failsWith_error (.inl ⟨_, rfl, rfl⟩)
      | _ => exact failsWith_ok _
    · rename_i d hd
      split_ifs
      · unfold endDraft
        split_ifs
        · exact failsWith_error (.inl ⟨_, rfl, rfl⟩)
        · exact (Draft.failsWith_finish ((hs d hd).trans (by omega)) _).bind fun f _ =>
            failsWith_ok _
      · exact (Draft.failsWith_record hr).map _

end ExtractState

/-- A unit that is not divided into functions has a defect or is given up. -/
lemma failsWith_extractFunctions (rs : List Record) :
    FailsWith (KeepsUndivided rs) (extractFunctions rs) := by
  refine ExtractState.failsWith_steps (n := 0) (fun d hd => nomatch hd) (fun _ => id) ?_
  rw [Nat.zero_add]

end AsmBridge
