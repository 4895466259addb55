import AsmBridge.Encoding.Encode
import AsmBridge.Proofs.Outcome
import Mathlib.Data.Int.Notation

/-!
# What a chosen form says about operands

A form that is chosen for operands has as many types as there are operands, and each type takes its
operand: a register of the class and width it names, a datum of its width or of unknown width, a
number. `OperandType.takes` is that agreement without regard to the other operands; the chosen form
of an encoded instruction satisfies it (`encodeFully_spec`).
-/

namespace AsmBridge

namespace Register

/-- A general-purpose register, of any width or a high byte. -/
def isGeneral : Register → Bool
  | .gp _ _ => true
  | .highByte _ => true
  | _ => false

/-- A vector register of the kind. -/
def isOfKind (k : VectorKind) : Register → Bool
  | .xmm _ => k == .xmm
  | .ymm _ => k == .ymm
  | _ => false

end Register

namespace OperandType

/-- The type takes a general-purpose register of so many bits. -/
def takesGeneral (bits : ℕ) (r : Register) : Bool := r.isGeneral && r.bits == bits

/-- The type takes the operand, whatever the others are. -/
def takes : OperandType → Operand → Bool
  | .one, o => o == .imm 1
  | .fixed r, o => o == .reg r
  | .gp w, .reg r => takesGeneral w.bits r
  | .gpOrMem w, .reg r => takesGeneral w.bits r
  | .gpOrMem w, .mem a => memSuits w.bits a.bits
  | .gpOrNarrow w _, .reg r => takesGeneral w.bits r
  | .gpOrNarrow _ n, .mem a => memSuits n a.bits
  | .vector k _, .reg r => r.isOfKind k
  | .vectorOrMem k _ _, .reg r => r.isOfKind k
  | .vectorOrMem _ _ n, .mem a => memSuits n a.bits
  | .mem none, .mem _ => true
  | .mem (some n), .mem a => memSuits n a.bits
  | .imm _, .imm _ => true
  | _, _ => false

end OperandType

@[simp] lemma ofBool_ne_no {b : Bool} : Fit.ofBool b ≠ .no ↔ b = true := by
  cases b <;> simp [Fit.ofBool]

/-- The shape of a register: of a general-purpose one its width, of a vector its kind. -/
lemma shape_reg {r : Register} {s : Shape} (h : Operand.shape (.reg r) = .ok s) :
    (s = .gp r.bits ∧ r.isGeneral = true) ∨ (s = .xmm ∧ r.isOfKind .xmm = true) ∨
      (s = .ymm ∧ r.isOfKind .ymm = true) := by
  cases r <;> simp_all [Operand.shape, Register.isGeneral, Register.isOfKind]

/-- The shape of a number is that of an immediate. -/
lemma shape_imm {v : ℤ} {s : Shape} (h : Operand.shape (.imm v) = .ok s) :
    ∃ bits narrower, s = .imm bits narrower := by
  simp only [Operand.shape, immShape] at h
  split at h
  · cases h
  · exact ⟨_, _, (Except.ok.inj h).symm⟩

namespace OperandType

variable {t : OperandType} {opBits : Option ℕ} {vector : Bool} {o : Operand} {s : Shape}

/-- A type that a register suits takes it. -/
lemma takes_of_fit_reg {r : Register} (hs : Operand.shape (.reg r) = .ok s)
    (h : t.fit opBits vector (.reg r) s ≠ .no) : t.takes (.reg r) = true := by
  rcases shape_reg hs with ⟨rfl, hr⟩ | ⟨rfl, hr⟩ | ⟨rfl, hr⟩
  · cases t with
    | mem want => cases want <;> simp [fit] at h
    | vector k n => cases k <;> simp [fit] at h
    | vectorOrMem k n bits => cases k <;> simp [fit] at h
    | _ => simp_all [fit, takes, takesGeneral]
  all_goals
    cases t with
    | mem want => cases want <;> simp [fit] at h
    | vector k n => cases k <;> simp_all [fit, takes]
    | vectorOrMem k n bits => cases k <;> simp_all [fit, takes]
    | _ => simp_all [fit, takes]

/-- A type that an address suits takes it. -/
lemma takes_of_fit_mem {a : Address} (h : t.fit opBits vector (.mem a) (.mem a.bits) ≠ .no) :
    t.takes (.mem a) = true := by
  cases t with
  | mem want => cases want <;> simp_all [fit, takes]
  | vector k n => cases k <;> simp [fit] at h
  | vectorOrMem k n bits => cases k <;> simp_all [fit, takes]
  | _ => simp_all [fit, takes]

/-- A type that a number suits takes it. -/
lemma takes_of_fit_imm {v : ℤ} {bits : ℕ} {narrower : Bool}
    (h : t.fit opBits vector (.imm v) (.imm bits narrower) ≠ .no) : t.takes (.imm v) = true := by
  cases t with
  | mem want => cases want <;> simp [fit] at h
  | vector k n => cases k <;> simp [fit] at h
  | vectorOrMem k n bits => cases k <;> simp [fit] at h
  | _ => simp_all [fit, takes]

/-- A type that an operand suits takes it. -/
theorem takes_of_fit (hs : o.shape = .ok s) (h : t.fit opBits vector o s ≠ .no) :
    t.takes o = true := by
  cases o with
  | reg r => exact takes_of_fit_reg hs h
  | imm v =>
    obtain ⟨bits, narrower, rfl⟩ := shape_imm hs
    exact takes_of_fit_imm h
  | sym name => cases hs
  | mem a =>
    obtain rfl := Except.ok.inj hs
    exact takes_of_fit_mem h

end OperandType

/-! ## The chosen form -/

/-- The type suits the operand, in its shape, beside operands of that width. -/
def OperandType.Suits (opBits : Option ℕ) (vector : Bool) (t : OperandType) (o : Operand) : Prop :=
  ∃ s, o.shape = .ok s ∧ t.fit opBits vector o s ≠ .no

/-- A form that operands suit has a type for each of them that suits it, and is not barred for
them. -/
lemma Form.suits_of_fit {f : Form} {ops : List Operand} {ss : List Shape}
    (hs : shapes ops = .ok ss) (h : f.fit ops ss ≠ .no) :
    List.Forall₂ (OperandType.Suits (operationBits? ops) (anyVector ops)) f.types ops ∧
      f.barred ≠ some ops := by
  have hsuits : ∀ {types : List OperandType} {ops : List Operand} {ss : List Shape}
      (opBits : Option ℕ) (vector : Bool),
      List.Forall₂ (fun o s => Operand.shape o = .ok s) ops ss → types.length = ops.length →
      (∀ p ∈ types.zip (ops.zip ss), p.1.fit opBits vector p.2.1 p.2.2 ≠ .no) →
      List.Forall₂ (OperandType.Suits opBits vector) types ops := by
    intro types ops ss opBits vector hs hlen hfit
    induction hs generalizing types with
    | nil =>
      rw [List.length_nil, List.length_eq_zero_iff] at hlen
      exact hlen ▸ .nil
    | cons hshape _ ih =>
      cases types with
      | nil => cases hlen
      | cons t types =>
        refine .cons ⟨_, hshape, hfit _ List.mem_cons_self⟩ ?_
        exact ih (Nat.succ.inj hlen) fun p hp => hfit p (List.mem_cons_of_mem _ hp)
  unfold Form.fit at h
  dsimp only at h
  split_ifs at h with hlen hno
  · exact absurd rfl h
  · exact absurd rfl h
  all_goals
    simp only [Bool.or_eq_true, bne_iff_ne, beq_iff_eq, not_or, not_not] at hlen
    refine ⟨hsuits _ _ (mapM_eq_ok.mp hs) hlen.1 fun p hp hfit => hno ?_, hlen.2⟩
    rw [List.contains_iff_mem, ← hfit]
    exact List.mem_map_of_mem hp

/-- The chosen form is one of the forms, has types that suit the operands one by one, and is not
barred for them. -/
lemma suits_of_selectForm {mnemonic : String} {forms : List Form} {ops : List Operand} {f : Form}
    (h : selectForm mnemonic forms ops = .ok f) :
    f ∈ forms ∧
      List.Forall₂ (OperandType.Suits (operationBits? ops) (anyVector ops)) f.types ops ∧
      f.barred ≠ some ops := by
  obtain ⟨ss, hss, h⟩ := bind_eq_ok.mp h
  have hfit : ∀ fit : Fit, fit ≠ .no → ∀ g, forms.find? (fun g => g.fit ops ss == fit) = some g →
      g ∈ forms ∧ List.Forall₂ (OperandType.Suits (operationBits? ops) (anyVector ops)) g.types ops ∧
        g.barred ≠ some ops := by
    intro fit hne g hg
    have hg' := List.find?_some hg
    rw [beq_iff_eq] at hg'
    exact ⟨List.mem_of_find?_eq_some hg, Form.suits_of_fit hss (hg' ▸ hne)⟩
  dsimp only at h
  split_ifs at h
  · cases h
  · split at h
    · rename_i g hg
      obtain rfl := pure_eq_ok.mp h
      exact hfit .yes (by decide) _ hg
    · split at h
      · rename_i g hg
        obtain rfl := pure_eq_ok.mp h
        exact hfit .unsigned (by decide) _ hg
      · cases h

/-- The chosen form is one of the forms, takes the operands one by one, and is not barred for
them. -/
theorem selectForm_spec {mnemonic : String} {forms : List Form} {ops : List Operand} {f : Form}
    (h : selectForm mnemonic forms ops = .ok f) :
    f ∈ forms ∧ List.Forall₂ (fun t o => t.takes o = true) f.types ops ∧ f.barred ≠ some ops := by
  obtain ⟨hmem, hsuits, hbarred⟩ := suits_of_selectForm h
  exact ⟨hmem, hsuits.imp fun _ _ ⟨_, hs, hfit⟩ => OperandType.takes_of_fit hs hfit, hbarred⟩

/-! ## The form of an encoded instruction -/

/-- An instruction that is looked up is in the table. -/
lemma Table.mem_of_lookup? {mnemonic : String} {entry : Table.Entry}
    (h : Table.lookup? mnemonic = some entry) : entry ∈ Table.entries := by
  unfold Table.lookup? at h
  exact List.mem_of_find?_eq_some h

/-- The form is one of the encoding table. -/
def Form.IsListed (f : Form) : Prop := ∃ entry ∈ Table.entries, f ∈ entry.forms

/-- An encoded instruction is in the table, with a form that takes its operands. -/
theorem encodeFully_entry {mnemonic : String} {mark : Option String} {ops : List Operand}
    {e : Encoded} (h : encodeFully mnemonic mark ops = .ok e) :
    ∃ entry ∈ Table.entries, Table.lookup? mnemonic = some entry ∧ e.form ∈ entry.forms ∧
      List.Forall₂ (fun t o => t.takes o = true) e.form.types ops ∧ e.form.barred ≠ some ops ∧
      e.form.assemble mark ops = .ok e.code := by
  unfold encodeFully at h
  split at h
  · cases h
  · rename_i entry hentry
    obtain ⟨f, hf, h⟩ := bind_eq_ok.mp h
    obtain ⟨code, hcode, h⟩ := bind_eq_ok.mp h
    obtain rfl := pure_eq_ok.mp h
    obtain ⟨hmem, htakes, hbarred⟩ := selectForm_spec hf
    exact ⟨entry, Table.mem_of_lookup? hentry, hentry, hmem, htakes, hbarred, hcode⟩

/-- An encoded instruction has a form of the table that takes its operands, filled in with them. -/
theorem encodeFully_spec {mnemonic : String} {mark : Option String} {ops : List Operand}
    {e : Encoded} (h : encodeFully mnemonic mark ops = .ok e) :
    e.form.IsListed ∧ List.Forall₂ (fun t o => t.takes o = true) e.form.types ops ∧
      e.form.barred ≠ some ops ∧ e.form.assemble mark ops = .ok e.code := by
  obtain ⟨entry, hentry, -, hmem, htakes, hbarred, hcode⟩ := encodeFully_entry h
  exact ⟨⟨entry, hentry, hmem⟩, htakes, hbarred, hcode⟩

end AsmBridge
