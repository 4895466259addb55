import AsmBridge.Proofs.Encoding.RoundTrip
import AsmBridge.Proofs.Source.Addresses

/-!
# Refusals

An instruction that cannot be encoded is refused, which makes a defect of its function. Of the
errors that are no refusals, only one occurs with the operands that a unit can have: an immediate
below zero that is too long to be shown (`failsWith_encode`).
-/

namespace AsmBridge

/-- The operand is a number below zero with too many digits to be written. -/
def Operand.IsUnwritable (o : Operand) : Prop :=
  ∃ v < 0, o = .imm v ∧ Text.isWritable v = false

/-- The error is a refusal, or the condition holds and it is that of a number too long to be
written. -/
def IsRefusedOr (cond : Prop) (e : EncodeError) : Prop :=
  e.isRefusal = true ∨ (e = .immediateUnwritable ∧ cond)

/-- The error is a refusal. -/
def IsRefused (e : EncodeError) : Prop := e.isRefusal = true

/-! ## The choice of a form -/

section Select

variable {ops : List Operand}

/-- An operand has a shape, or it is refused, or it is a number that cannot be written. -/
lemma failsWith_shape (o : Operand) : FailsWith (IsRefusedOr o.IsUnwritable) o.shape := by
  have himm : ∀ v : ℤ, FailsWith (IsRefusedOr (Operand.imm v).IsUnwritable) (immShape v) := by
    intro v
    unfold immShape
    split
    · refine failsWith_error ?_
      split
      · rename_i hv
        rw [Bool.and_eq_true, decide_eq_true_eq, Bool.not_eq_true'] at hv
        exact .inr ⟨rfl, v, hv.1, rfl, hv.2⟩
      · exact .inl rfl
    · exact failsWith_ok _
  unfold Operand.shape
  split
  · exact failsWith_error (.inl rfl)
  · exact failsWith_ok _
  · exact failsWith_ok _
  · exact failsWith_ok _
  · exact failsWith_ok _
  · exact himm _
  · exact failsWith_error (.inl rfl)

/-- An operand that a unit can have can be written. -/
lemma isSome_text?_of_isReadable {o : Operand} (h : ∀ a, o = .mem a → a.IsReadable) :
    o.text?.isSome = true := by
  have hwords : ∀ n ∈ Source.widthWords.map (·.2), (sizeWord? n).isSome = true := by decide
  cases o with
  | mem a =>
    have hbits := (h a rfl).bits
    rw [Operand.text?, Address.text?]
    cases hn : a.bits with
    | none => rfl
    | some n =>
      dsimp only
      rw [Option.isSome_map]
      exact hwords n (hbits n hn)
  | _ => rfl

/-- A form is chosen for the operands, or they are refused, or one of them cannot be written: a
number below zero, or a datum of a width that has no word. -/
lemma failsWith_selectForm (mnemonic : String) (forms : List Form) (ops : List Operand) :
    FailsWith (fun e => IsRefusedOr (∃ o ∈ ops, o.IsUnwritable) e ∨
      (e = .unnamedWidth ∧ ∃ o ∈ ops, o.text? = none)) (selectForm mnemonic forms ops) := by
  unfold selectForm
  refine FailsWith.bind (failsWith_mapM fun o ho => ?_) fun ss _ => ?_
  · refine (failsWith_shape o).imp fun e he => .inl ?_
    exact he.imp_right (And.imp_right fun h => ⟨o, ho, h⟩)
  · dsimp only
    split_ifs with hcompares
    · refine failsWith_error (.inr ⟨rfl, ?_⟩)
      rw [Bool.and_eq_true] at hcompares
      obtain ⟨o, ho, htext⟩ := List.any_eq_true.mp hcompares.2
      exact ⟨o, ho, Option.isNone_iff_eq_none.mp htext⟩
    · split
      · exact failsWith_ok _
      · split
        · exact failsWith_ok _
        · exact failsWith_error (.inl (.inl rfl))

/-- For operands that a unit can have a form is chosen, or they are refused, or one of them is a
number that cannot be written. -/
lemma failsWith_selectForm_of_isReadable (hops : ∀ a, .mem a ∈ ops → a.IsReadable)
    (mnemonic : String) (forms : List Form) :
    FailsWith (IsRefusedOr (∃ o ∈ ops, o.IsUnwritable)) (selectForm mnemonic forms ops) := by
  refine (failsWith_selectForm mnemonic forms ops).imp fun e he => he.resolve_right ?_
  rintro ⟨-, o, ho, hnone⟩
  have hsome := isSome_text?_of_isReadable fun a ha => hops a (ha ▸ ho)
  rw [hnone] at hsome
  cases hsome

end Select

/-! ## Filling in the form -/

/-- An operand that is not relative to the instruction pointer has a code or is refused. -/
lemma failsWith_ofOperand {o : Operand} (ho : ∀ a, o = .mem a → a.ripRelative = false)
    (field : RegField) : FailsWith IsRefused (AddressCode.ofOperand field o) := by
  have hdisp : ∀ (low : Fin 8) (d : ℤ), FailsWith IsRefused (dispField low d) := by
    intro low d
    unfold dispField
    split_ifs
    · exact failsWith_ok _
    · exact failsWith_ok _
    · split
      · exact failsWith_ok _
      · exact failsWith_error rfl
  unfold AddressCode.ofOperand
  split
  · exact failsWith_error rfl
  · exact failsWith_ok _
  · rename_i a
    unfold AddressCode.ofAddress
    rw [ho a rfl]
    split
    · exact failsWith_error rfl
    · split
      · exact failsWith_error rfl
      · rw [if_neg Bool.false_ne_true]
        split
        · exact failsWith_error rfl
        · split
          · unfold AddressCode.ofBaseless
            split
            · exact failsWith_ok _
            · exact failsWith_error rfl
          · unfold AddressCode.ofBased
            refine (hdisp _ _).bind fun p _ => ?_
            dsimp only
            split <;> exact failsWith_ok _
  · exact failsWith_error rfl
  · exact failsWith_error rfl

/-- Operands that a form takes are filled in or refused. -/
lemma failsWith_assemble {f : Form} {ops : List Operand} (hf : f.IsListed)
    (hlen : f.types.length = ops.length) (hops : ∀ a, .mem a ∈ ops → a.ripRelative = false)
    (mark : Option String) : FailsWith IsRefused (f.assemble mark ops) := by
  have hreadable := hf.isReadable
  obtain ⟨mnemonic, hregular⟩ := hf.isRegular
  have hfield : FailsWith IsRefused
      (regField (Placed.ofForm f ops).reg f.opcode.spec.extension) := by
    cases hreg : hasPlace .reg f.slots with
    | true =>
      rw [hregular.extension hreg]
      unfold regField
      split <;> first | exact failsWith_ok _ | contradiction
    | false =>
      rw [Placed.ofForm_reg_eq_none ops hreg]
      unfold regField
      split <;> first | exact failsWith_ok _ | contradiction
  have haddress : ∀ field, FailsWith IsRefused
      ((Placed.ofForm f ops).rm.mapM (AddressCode.ofOperand field)) := by
    intro field
    cases hrm : (Placed.ofForm f ops).rm with
    | none => exact failsWith_ok _
    | some o =>
      have ho := (mem_of_ofForm_rm hreadable hlen hrm).2
      rw [Option.mapM_some]
      exact (failsWith_ofOperand (fun a ha => hops a (ha ▸ ho)) field).map _
  have hmark : FailsWith IsRefused (markByte mark) := by
    unfold markByte
    split
    · exact failsWith_ok _
    · split
      · exact failsWith_ok _
      · exact failsWith_error rfl
  have hlead : ∀ ext, FailsWith IsRefused
      (codeLead f.opcode.spec (Placed.ofForm f ops) ext ops) := by
    intro ext
    unfold codeLead
    split
    · split
      · exact failsWith_error rfl
      · exact failsWith_ok _
    · split_ifs
      · split
        · exact failsWith_error rfl
        · exact failsWith_ok _
      · exact failsWith_ok _
  exact hfield.bind fun field _ => (haddress field).bind fun address _ =>
    hmark.bind fun byte _ => (hlead _).bind fun lead _ => failsWith_ok _

/-- An instruction with operands of a unit, none of them relative to the instruction pointer, is
encoded or refused, or one of its operands cannot be written. -/
lemma failsWith_encode {ops : List Operand}
    (hops : ∀ a, .mem a ∈ ops → a.IsReadable ∧ a.ripRelative = false) (mnemonic : String)
    (mark : Option String) :
    FailsWith (IsRefusedOr (∃ o ∈ ops, o.IsUnwritable)) (encode mnemonic mark ops) := by
  refine FailsWith.map ?_ _
  unfold encodeFully
  split
  · exact failsWith_error (.inl rfl)
  · rename_i entry hentry
    have hselect :=
      failsWith_selectForm_of_isReadable (fun a ha => (hops a ha).1) entry.mnemonic entry.forms
    refine hselect.bind fun f hf => FailsWith.bind ?_ fun code _ => failsWith_ok _
    obtain ⟨hmem, htakes, -⟩ := selectForm_spec hf
    have hlisted : f.IsListed := ⟨entry, Table.mem_of_lookup? hentry, hmem⟩
    refine (failsWith_assemble hlisted htakes.length_eq (fun a ha => (hops a ha).2) mark).imp ?_
    exact fun e he => .inl he

end AsmBridge
