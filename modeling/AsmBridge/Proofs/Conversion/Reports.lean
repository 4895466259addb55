import AsmBridge.Proofs.Conversion.Defects
import AsmBridge.Proofs.Source.Lines

/-!
# What a function reports

The conversion of a function reports the problems with its instructions, or the one defect of its
plan, or the defects of the records of its body, in order (`reported_eq`). Its records stand on
ascending lines, and so do several defects (`defects_ascend`).
-/

namespace AsmBridge

/-- The defect that a record of a body has, if the register holds the address of the pool. -/
def recordDefect? (c : UnitContext) (f : SourceFunction) (r : Option Register) (b : BodyItem) :
    Option Diagnostic :=
  match convertRecord c f r [] b with
  | .ok (.error d) => some (d.located (some f.name) b.line)
  | _ => none

section Function

variable {c : UnitContext} {f : SourceFunction} {r : Option Register}

/-- The problem with the instruction of a record, if it is one. -/
def recordProblem? (f : SourceFunction) (b : BodyItem) : Option Diagnostic :=
  b.instruction?.bind fun i => i.problem.map fun d => d.located (some f.name) i.line

lemma problems_eq (f : SourceFunction) : problems f = f.body.filterMap (recordProblem? f) := by
  rw [problems, SourceFunction.instructions, List.filterMap_filterMap]
  rfl

/-- What stands in place of returns does not decide on whether a record is converted. -/
lemma exists_convertRecord_nil {exit : List Item} {b : BodyItem} {result : ItemsOrDefect}
    (h : convertRecord c f r exit b = .ok result) :
    ∃ result', convertRecord c f r [] b = .ok result' ∧
      ∀ d, result = .error d ↔ result' = .error d := by
  cases b with
  | epilogue e =>
    obtain rfl := Except.ok.inj h
    exact ⟨_, rfl, fun d => ⟨fun h => (nomatch h), fun h => (nomatch h)⟩⟩
  | _ => exact ⟨result, h, fun d => Iff.rfl⟩

/-- The defects that are collected from a body are those of its records. -/
lemma collect_fst {exit : List Item} {body : List BodyItem} {results : List ItemsOrDefect}
    (h : List.Forall₂ (fun b result => convertRecord c f r exit b = .ok result) body results) :
    (collect f (body.zip results)).1 = body.filterMap (recordDefect? c f r) := by
  induction h with
  | nil => rfl
  | @cons b result body results hb _ ih =>
    obtain ⟨result', hb', hdefect⟩ := exists_convertRecord_nil hb
    rw [List.zip_cons_cons, collect]
    cases result with
    | ok items =>
      have hnone : recordDefect? c f r b = none := by
        cases result' with
        | ok items' => rw [recordDefect?, hb']
        | error d => cases (hdefect d).mpr rfl
      rw [List.filterMap_cons_none hnone, ← ih]
    | error d =>
      obtain rfl := (hdefect d).mp rfl
      have hsome : recordDefect? c f r b = some (d.located (some f.name) b.line) := by
        rw [recordDefect?, hb']
      rw [List.filterMap_cons_some hsome, ← ih]

/-- What the conversion of a function reports, unless it is given up: the problems with its
instructions, or the defect of its plan, or the defects of the records of its body. -/
def reportOf (c : UnitContext) (f : SourceFunction) : List Diagnostic :=
  if problems f ≠ [] then problems f
  else
    match planFunction c f with
    | .ok p => f.body.filterMap (recordDefect? c f p.poolRegister)
    | .error (.defect d) => [d.located (some f.name) none]
    | .error _ => []

/-- The conversion of a function that is planned has a result for every record of its body, unless
it is given up or the function has problems. -/
lemma convertRecord_of_convertFunction {result : Except (List Diagnostic) ConvertedFunction}
    (h : convertFunction c f = .ok result) (hnil : problems f = []) {p : FunctionPlan}
    (hp : planFunction c f = .ok p) :
    (∀ b ∈ f.body, ∃ res, convertRecord c f p.poolRegister [] b = .ok res) ∧
      reported result = f.body.filterMap (recordDefect? c f p.poolRegister) := by
  simp only [convertFunction, hnil, hp] at h
  obtain ⟨entry, exit, results, -, -, hresults, hresult⟩ := convertBody_eq h
  have hall := mapM_eq_ok.mp hresults
  constructor
  · intro b hb
    obtain ⟨res, -, hres⟩ := exists_of_mem_left hall hb
    obtain ⟨res', hres', -⟩ := exists_convertRecord_nil hres
    exact ⟨res', hres'⟩
  · rw [← collect_fst hall, ← hresult]
    split
    · rename_i hds
      exact (List.isEmpty_iff.mp hds).symm
    · rfl

/-- What a function reports that is not given up. -/
lemma reported_eq {result : Except (List Diagnostic) ConvertedFunction}
    (h : convertFunction c f = .ok result) : reported result = reportOf c f := by
  unfold reportOf
  split_ifs with hproblems
  · simp only [convertFunction, List.isEmpty_eq_false_iff.mpr hproblems] at h
    rw [← Except.ok.inj h]
    rfl
  · rw [not_not] at hproblems
    cases hp : planFunction c f with
    | ok p => exact (convertRecord_of_convertFunction h hproblems hp).2
    | error e =>
      simp only [convertFunction, hproblems, hp] at h
      cases e with
      | defect d =>
        rw [← Except.ok.inj h]
        rfl
      | _ => cases h

end Function

/-! ## The lines of defects -/

/-- The diagnostic is one of the line of the record, which is no label and no return. -/
def Diagnostic.IsAt (d : Diagnostic) (b : BodyItem) : Prop := b.statementLine? = some d.line

lemma Diagnostic.line_located {d : Diagnostic} {line : Option ℕ} (h : d.line = line)
    (function : Option String) : (d.located function line).line = line := by
  rw [located, h, Option.or_self]

section Lines

variable {c : UnitContext} {f : SourceFunction} {r : Option Register}

/-- The defect of a jump is one of its line. -/
lemma line_of_jumpTarget {i : Instruction} {d : Diagnostic}
    (h : Helpers.jumpTarget f i = .error d) : d.line = i.line := by
  unfold Helpers.jumpTarget at h
  split at h
  · rw [← Except.error.inj h]
    rfl
  · split at h
    · cases h
    · rw [← Except.error.inj h]
      rfl

/-- The defect of a call is one of its line. -/
lemma line_of_callLine {hs : Helpers} {i : Instruction} {d : Diagnostic}
    (h : hs.callLine f i = .error d) : d.line = i.line := by
  unfold Helpers.callLine Helpers.resolve at h
  split at h
  · rw [← Except.error.inj h]
    rfl
  · dsimp only at h
    split at h
    · cases h
    · rw [← Except.error.inj h]
      rfl

/-- A defect of an instruction that is converted is one of its line. -/
lemma line_of_convertInstruction {i : Instruction} {d : Diagnostic}
    (h : convertInstruction c f r i = .ok (.error d)) : d.line = i.line := by
  unfold convertInstruction at h
  split at h
  · cases htarget : Helpers.jumpTarget f i with
    | ok target =>
      rw [htarget] at h
      cases Except.ok.inj h
    | error e =>
      rw [htarget] at h
      rw [← Except.error.inj (Except.ok.inj h)]
      exact line_of_jumpTarget htarget
  · split_ifs at h
    · have h := mapError_eq_ok.mp h
      unfold convertCall at h
      split at h
      · rename_i e he
        rw [← Except.error.inj (pure_eq_ok.mp h)]
        exact line_of_callLine he
      · obtain ⟨anchor, -, h⟩ := bind_eq_ok.mp h
        cases pure_eq_ok.mp h
    · cases Except.ok.inj h
    · rw [convertCode_eq] at h
      obtain ⟨ops, -, h⟩ := bind_eq_ok.mp h
      unfold encodeItems at h
      split at h
      · cases Except.ok.inj h
      · split_ifs at h
        rw [← Except.error.inj (Except.ok.inj h)]
        rfl

/-- The defect of a record is one of its line. -/
lemma isAt_of_recordDefect {b : BodyItem} {d : Diagnostic} (h : recordDefect? c f r b = some d) :
    d.IsAt b := by
  unfold recordDefect? at h
  split at h
  · rename_i e he
    obtain rfl := Option.some.inj h
    cases b with
    | label l => cases Except.ok.inj he
    | epilogue e => cases Except.ok.inj he
    | instruction i =>
      exact congrArg some (Diagnostic.line_located (line_of_convertInstruction he) _).symm
    | directive e =>
      refine congrArg some (Diagnostic.line_located ?_ _).symm
      rw [convertRecord] at he
      split_ifs at he
      · have he := mapError_eq_ok.mp he
        unfold convertData at he
        split at he
        · cases Except.ok.inj he
        · cases he
        · rw [← Except.error.inj (Except.ok.inj he)]
          rfl
      · cases Except.ok.inj he
  · cases h

/-- The problem of a record is one of its line, if those of its instruction are. -/
lemma isAt_of_recordProblem {b : BodyItem}
    (hb : ∀ i ∈ b.instruction?, ∀ d ∈ i.problem, d.line = i.line) {d : Diagnostic}
    (h : recordProblem? f b = some d) : d.IsAt b := by
  obtain ⟨i, hi, h⟩ := Option.bind_eq_some_iff.mp h
  obtain ⟨e, he, rfl⟩ := Option.map_eq_some_iff.mp h
  cases b with
  | instruction j =>
    obtain rfl := Option.some.inj hi
    exact congrArg some (Diagnostic.line_located (hb j rfl e he) _).symm
  | _ => cases hi

/-- Diagnostics of records that stand on ascending lines do so, too. -/
lemma pairwise_filterMap_of_isAt {body : List BodyItem}
    (hbody : (body.filterMap (·.statementLine?)).Pairwise IsBefore)
    {g : BodyItem → Option Diagnostic} (hg : ∀ b ∈ body, ∀ d, g b = some d → d.IsAt b) :
    (body.filterMap g).Pairwise fun d e => IsBefore d.line e.line := by
  rw [List.pairwise_filterMap] at hbody ⊢
  refine hbody.imp_of_mem ?_
  intro b b' hb hb' hbefore d hd e he
  exact hbefore _ (hg b hb d hd) _ (hg b' hb' e he)

variable {text : String} {records : List Record} {functions : List SourceFunction}

/-- The defects of a function stand on ascending lines. -/
lemma defects_ascend (hread : Source.readUnit text = .ok records)
    (hfunctions : extractFunctions records = .ok functions) (hf : f ∈ functions) (x : DataIndex) :
    (c.defects x f).Pairwise fun d e => IsBefore d.line e.line := by
  have hbody := ascends_of_extractFunctions hread hfunctions hf
  unfold UnitContext.defects
  split
  · exact List.pairwise_singleton _ _
  · split
    · rename_i ds hds
      change (reported (.error ds)).Pairwise _
      rw [reported_eq hds, reportOf, problems_eq]
      split_ifs
      · refine pairwise_filterMap_of_isAt hbody fun b hb d hd => isAt_of_recordProblem ?_ hd
        intro i hi
        exact line_of_problem hread
          (mem_of_extractFunctions hfunctions hf (List.mem_filterMap.mpr ⟨b, hb, hi⟩))
      · split
        · exact pairwise_filterMap_of_isAt hbody fun b _ d hd => isAt_of_recordDefect hd
        · exact List.pairwise_singleton _ _
        · exact .nil
    · exact .nil

end Lines

end AsmBridge
