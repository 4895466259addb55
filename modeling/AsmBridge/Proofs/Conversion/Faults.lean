import AsmBridge.Proofs.Conversion.Reports
import AsmBridge.Proofs.Conversion.Stops
import AsmBridge.Proofs.Encoding.Displacement

/-!
# How a conversion ends

A conversion ends in one of three ways: with a converted unit, with a report of defects, or without
either, for a reason that `GivesUp` lists. An instruction that the table does not have is a defect
of its function, whose kind is that of instructions, and the defects of the other functions are
reported beside it as they are (`convert_ends`). It is the third way that a caller does not count
on: already a store of strings whose last letter names no width gives a unit up (`not_reported`).
-/

namespace AsmBridge

/-- Why the table does not have an instruction: it lacks the mnemonic, or it has no form for the
operands. -/
def Instruction.tableError? (i : Instruction) : Option EncodeError :=
  match Table.lookup? i.mnemonic with
  | none => some (.unknownMnemonic i.mnemonic)
  | some entry =>
    match selectForm entry.mnemonic entry.forms i.operands with
    | .error e => some e
    | .ok _ => none

/-- The defect of an instruction that cannot be encoded. -/
def Instruction.refusal (f : SourceFunction) (i : Instruction) (e : EncodeError) : Diagnostic :=
  functionDefect f i.line i.mnemonic (.notEncodable i.text e.message)

section Function

variable {c : UnitContext} {x : DataIndex} {f : SourceFunction} {r : Option Register}
  {i : Instruction} {e : EncodeError}

/-- Where the data lie has no part in whether the table has an instruction. -/
lemma encode_of_tableError {pool : Pool} {ops : List Operand} (h : i.tableError? = some e)
    (hops : List.Forall₂ (Operand.Moved pool r) i.operands ops) (mark : Option String) :
    encode i.mnemonic mark ops = .error e := by
  unfold Instruction.tableError? at h
  unfold encode encodeFully
  cases hentry : Table.lookup? i.mnemonic with
  | none =>
    rw [hentry] at h
    rw [← Option.some.inj h]
    rfl
  | some entry =>
    have hshapes : List.Forall₂ Operand.SameShape i.operands ops := by
      refine hops.imp fun o o' hmoved => ?_
      cases hmoved with
      | datum => exact .mem rfl
      | other => exact .same _
    rw [hentry] at h
    dsimp only at h ⊢
    rw [selectForm_of_sameShape hshapes
      (barsNoAddress_of_mem (Table.mem_of_lookup? hentry))] at h
    cases hform : selectForm entry.mnemonic entry.forms ops with
    | ok form =>
      rw [hform] at h
      cases h
    | error e' =>
      rw [hform] at h
      rw [← Option.some.inj h]
      rfl

/-- An instruction that is encoded, but not in the table, has a defect if it has a result. -/
lemma convertInstruction_of_tableError (henc : i.isEncoded = true) (h : i.tableError? = some e)
    (hnone : r = none → ∀ a ∈ i.addresses, a.ripRelative = false) {result : ItemsOrDefect}
    (hresult : convertInstruction c f r i = .ok result) : result = .error (i.refusal f e) := by
  rw [convertInstruction_eq henc] at hresult
  obtain ⟨ops, hops, hresult⟩ := bind_eq_ok.mp hresult
  unfold encodeItems at hresult
  rw [encode_of_tableError h (moved_of_moveOperands hnone hops)] at hresult
  dsimp only at hresult
  split_ifs at hresult
  exact (Except.ok.inj hresult).symm

/-- What a function that does not lack data reports. -/
lemma defects_eq_reported {result : Except (List Diagnostic) ConvertedFunction}
    (hlacks : x.lacks f = none) (hresult : convertFunction c f = .ok result) :
    c.defects x f = reported result := by
  unfold UnitContext.defects
  rw [hlacks, hresult]
  cases result <;> rfl

/-- A function that is planned reports each of its instructions that is not in the table. -/
lemma refusal_mem_defects {result : Except (List Diagnostic) ConvertedFunction}
    (hresult : convertFunction c f = .ok result) (hlacks : x.lacks f = none)
    (hnil : problems f = []) {p : FunctionPlan} (hp : planFunction c f = .ok p)
    (hi : i ∈ f.instructions) (henc : i.isEncoded = true) (h : i.tableError? = some e) :
    i.refusal f e ∈ c.defects x f := by
  obtain ⟨hall, hreported⟩ := convertRecord_of_convertFunction hresult hnil hp
  obtain ⟨b, hb, hbi⟩ := List.mem_filterMap.mp hi
  obtain rfl : b = .instruction i := by
    cases b with
    | instruction j => exact congrArg _ (Option.some.inj hbi)
    | _ => cases hbi
  obtain ⟨res, hres⟩ := hall _ hb
  obtain rfl := convertInstruction_of_tableError henc h
    (fun hnone => (isPlanOf_of_planFunction hp).ripRelative hnone i hi) hres
  rw [defects_eq_reported hlacks hresult, hreported, List.mem_filterMap]
  refine ⟨_, hb, ?_⟩
  rw [recordDefect?, hres]
  simp [Instruction.refusal, functionDefect, Diagnostic.located, BodyItem.line]

/-- A function with an instruction that is not in the table has a defect, unless it is given up. -/
lemma defects_ne_nil (hresult : x.lacks f = none → ∃ result, convertFunction c f = .ok result)
    (hi : i ∈ f.instructions) (henc : i.isEncoded = true) (h : i.tableError? = some e) :
    c.defects x f ≠ [] := by
  cases hlacks : x.lacks f with
  | some d =>
    unfold UnitContext.defects
    rw [hlacks]
    exact List.cons_ne_nil d []
  | none =>
    obtain ⟨result, hresult⟩ := hresult hlacks
    by_cases hnil : problems f = []
    · cases hp : planFunction c f with
      | ok p => exact List.ne_nil_of_mem (refusal_mem_defects hresult hlacks hnil hp hi henc h)
      | error fault =>
        rw [defects_eq_reported hlacks hresult]
        simp only [convertFunction, hnil, hp] at hresult
        cases fault with
        | defect d =>
          rw [← Except.ok.inj hresult]
          exact List.cons_ne_nil _ []
        | _ => cases hresult
    · rw [defects_eq_reported hlacks hresult, reported_eq hresult, reportOf, if_pos hnil]
      exact hnil

end Function

/-- The defects of a unit in which a function has an instruction that is not in the table: those of
all functions, one function after another, and this one is among the functions with defects. If its
data, the reading of its instructions and its plan leave nothing to report, the instruction is
reported, with its line, its statement and the error. -/
structure ReportsRefusal (c : UnitContext) (x : DataIndex) (functions : List SourceFunction)
    (f : SourceFunction) (i : Instruction) (e : EncodeError) (ds : List Diagnostic) : Prop where
  all : ds = functions.flatMap (c.defects x)
  own : c.defects x f ≠ []
  refusal : x.lacks f = none → problems f = [] → (∃ p, planFunction c f = .ok p) →
    i.refusal f e ∈ c.defects x f

/-- A conversion ends with a unit, with defects, or for one of the reasons to give a unit up, of
which a single function that is given up is one. Where the unit is not given up and labels name one
function each, an instruction that is not in the table is a defect of its function, and of the other
functions it is reported what is reported anyway. -/
theorem convert_ends (o : Options) (text : String) :
    ((∃ u, convert o text = .ok u) ∨
      (∃ ds, ds ≠ [] ∧ convert o text = .error (.defects o.file ds)) ∨
      ∃ e, GivesUp o text e ∧ convert o text = .error (.fault e)) ∧
    ∀ functions x, readFunctions text = .ok (functions, x) →
      (∀ f ∈ todo o x functions, ∀ e, convertFunction (unitContext o x functions) f = .error e →
        ∃ e', convert o text = .error (.fault e')) ∧
      ((functions.map (·.label)).Nodup → (∀ fault, convert o text ≠ .error (.fault fault)) →
        ∀ f ∈ functions, ∀ i ∈ f.instructions, i.isEncoded = true → ∀ e, i.tableError? = some e →
          ∃ ds, convert o text = .error (.defects o.file ds) ∧
            ReportsRefusal (unitContext o x functions) x functions f i e ds) := by
  constructor
  · cases h : convert o text with
    | ok u => exact .inl ⟨u, rfl⟩
    | error failure =>
      cases failsWith_convert o text failure h with
      | @defects ds hds => exact .inr (.inl ⟨ds, hds, rfl⟩)
      | @fault e he => exact .inr (.inr ⟨e, he, rfl⟩)
  · refine fun functions x hread =>
      ⟨fun f hf e he => exists_fault_of_convertFunction hread hf he, ?_⟩
    intro hnodup hfault f hf i hi henc e he
    obtain ⟨hresults, ds, hds, hends⟩ := convert_cases hread hnodup hfault
    have hown : (unitContext o x functions).defects x f ≠ [] :=
      defects_ne_nil (hresults f hf) hi henc he
    rcases hends with ⟨-, hconvert⟩ | ⟨hnil, -⟩
    · refine ⟨ds, hconvert, hds, hown, ?_⟩
      rintro hlacks hproblems ⟨p, hp⟩
      obtain ⟨result, hresult⟩ := hresults f hf hlacks
      exact refusal_mem_defects hresult hlacks hproblems hp hi henc he
    · rw [hds, List.flatMap_eq_nil_iff] at hnil
      exact absurd (hnil f hf) hown

/-- A unit whose first function has an instruction with an unknown mnemonic, whose second one has an
addition of data to a vector register, for which the table has no form, and whose third one is
converted by itself. The two instructions are reported. -/
theorem convert_ends_of_three :
    let text := String.join [
      ".section .rodata\n", "t: .long 1\n", ".text\n", "f: push rbp\n", "mov rbp, rsp\n",
      "foox eax\n", "leave\n", "ret\n", ".globl g\n", "g: push rbp\n", "mov rbp, rsp\n",
      "add xmm0, [rip + t]\n", "leave\n", "ret\n", ".globl h\n", "h: push rbp\n",
      "mov rbp, rsp\n", "leave\n", "ret\n"]
    ∃ functions x ds, readFunctions text = .ok (functions, x) ∧
      functions.map (·.label) = ["f", "g", "h"] ∧ convert {} text = .error (.defects none ds) ∧
      ds.map (fun d => (d.function, d.defect.kind.name)) =
        [(some "f", "UnsupportedInstructionError"), (some "g", "UnsupportedInstructionError")] ∧
      ∀ p ∈ [("foox eax", EncodeError.unknownMnemonic "foox"),
          ("add xmm0, [rip + t]", .noForm "add" ["xmm", "m"])],
        ∃ f ∈ functions, ∃ i ∈ f.instructions, i.text = p.1 ∧ i.refusal f p.2 ∈ ds ∧
          ReportsRefusal (unitContext {} x functions) x functions f i p.2 ds := by
  intro text
  obtain ⟨⟨functions, x⟩, hread, hlabels, hanswer, hds, hrefused⟩ : ∃ r,
      readFunctions text = .ok r ∧ r.1.map (·.label) = ["f", "g", "h"] ∧
      isAnswer (convert {} text) = true ∧
      (defectsOf (convert {} text)).map (fun d => (d.function, d.defect.kind.name)) =
        [(some "f", "UnsupportedInstructionError"), (some "g", "UnsupportedInstructionError")] ∧
      ∀ p ∈ [("foox eax", EncodeError.unknownMnemonic "foox"),
          ("add xmm0, [rip + t]", .noForm "add" ["xmm", "m"])],
        ∃ f ∈ r.1, ∃ i ∈ f.instructions, i.text = p.1 ∧ i.isEncoded = true ∧
          i.tableError? = some p.2 ∧ i.refusal f p.2 ∈ defectsOf (convert {} text) :=
    exists_ok_of_any (by decide +kernel)
  have hnodup : (functions.map (·.label)).Nodup := by
    rw [hlabels]
    decide
  have hends := fun {f} hf {i} hi henc {e} he =>
    ((convert_ends {} text).2 functions x hread).2 hnodup (ne_fault_of_isAnswer hanswer) f hf i hi
      henc e he
  obtain ⟨f, hf, i, hi, -, henc, he, -⟩ := hrefused _ List.mem_cons_self
  obtain ⟨ds, hconvert, -⟩ := hends hf hi henc he
  rw [hconvert] at hds hrefused
  refine ⟨functions, x, ds, hread, hlabels, hconvert, hds, fun p hp => ?_⟩
  obtain ⟨f, hf, i, hi, htext, henc, he, hmem⟩ := hrefused p hp
  obtain ⟨ds', hconvert', hreports⟩ := hends hf hi henc he
  obtain ⟨-, rfl⟩ := Failure.defects.inj (Except.error.inj (hconvert.symm.trans hconvert'))
  exact ⟨f, hf, i, hi, htext, hmem, hreports⟩

/-- A unit that stores a string with a letter at the end of its mnemonic that names no width. The
table does not have the instruction, but it is not reported: the unit is given up. -/
theorem not_reported :
    let text := String.join ["f: push rbp\n", "mov rbp, rsp\n", "stosx\n", "leave\n", "ret\n"]
    (∃ functions x, readFunctions text = .ok (functions, x) ∧ ∃ f ∈ functions,
      ∃ i ∈ f.instructions, i.isEncoded = true ∧
        i.tableError? = some (.unknownMnemonic "stosx")) ∧
    convert {} text = .error (.fault (.stop .accumulatorMissing)) := by
  intro text
  obtain ⟨⟨functions, x⟩, hread, hstop, hfound⟩ : ∃ r, readFunctions text = .ok r ∧
      stopOf (convert {} text) = some .accumulatorMissing ∧ ∃ f ∈ r.1,
        ∃ i ∈ f.instructions, i.isEncoded = true ∧
          i.tableError? = some (.unknownMnemonic "stosx") :=
    exists_ok_of_any (by decide +kernel)
  exact ⟨⟨functions, x, hread, hfound⟩, eq_of_stopOf hstop⟩

end AsmBridge
