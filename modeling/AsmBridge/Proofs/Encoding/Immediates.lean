import AsmBridge.Proofs.Encoding.OperandSize
import AsmBridge.Proofs.Encoding.Refusal

/-!
# Immediates keep their values

A number among the operands goes into a field of the width that the chosen form has for it. A
processor extends what stands there to the width of the operation, or takes it as a byte that counts
or controls. A form is only chosen if that gives the number again, modulo the width it is used with;
where no form could give it, there is no code (`encodeFully_keepsImmediates`). The one slip is in
the report: a number below zero that is too long to be written ends the operation instead of being
refused.
-/

namespace AsmBridge

/-! ## What a processor makes of a field -/

/-- The word of the given width that a processor makes of the contents of a narrower field, which it
extends by the sign, or of a field of that width. -/
def extended (bits width x : ℕ) : ℕ :=
  if bits < width then wrapped width ((x : ℤ).bmod (2 ^ bits)) else x

/-- A number that a field holds as a signed word extends to the same number. -/
lemma extended_of_fitsSigned {bits width : ℕ} {v : ℤ} (hbits : 0 < bits) (hle : bits ≤ width)
    (h : fitsSigned bits v = true) : extended bits width (wrapped bits v) = wrapped width v := by
  unfold extended
  split_ifs with hlt
  · rw [bmod_wrapped hbits h]
  · rw [le_antisymm hle (Nat.le_of_not_lt hlt)]

/-- A field of the width that is asked for is taken as it is. -/
lemma extended_self (width x : ℕ) : extended width width x = x := if_neg (lt_irrefl width)

/-- A narrower field extends to signed words of its own width only. -/
lemma exists_fitsSigned_of_extended {bits width : ℕ} (hbits : 0 < bits) (hlt : bits < width) (x : ℕ) :
    ∃ z, fitsSigned bits z = true ∧ extended bits width x = wrapped width z := by
  refine ⟨(x : ℤ).bmod (2 ^ bits), ?_, if_pos hlt⟩
  have hhalf : 2 ^ bits = 2 * 2 ^ (bits - 1) := by
    rw [← Nat.pow_succ']
    congr 1
    omega
  have hlower := Int.le_bmod (x := (x : ℤ)) (Nat.two_pow_pos bits)
  have hupper := Int.bmod_lt (x := (x : ℤ)) (Nat.two_pow_pos bits)
  simp only [fitsSigned, Bool.and_eq_true, decide_eq_true_eq]
  omega

/-! ## When a number suits a field -/

lemma fitsSigned_mono {m n : ℕ} {v : ℤ} (hle : m ≤ n) (h : fitsSigned m v = true) :
    fitsSigned n v = true := by
  have hpow : 2 ^ (m - 1) ≤ 2 ^ (n - 1) := Nat.pow_le_pow_right Nat.two_pos (by omega)
  simp only [fitsSigned, Bool.and_eq_true, decide_eq_true_eq] at h ⊢
  omega

lemma fitsUnsigned_mono {m n : ℕ} {v : ℤ} (hle : m ≤ n) (h : fitsUnsigned m v = true) :
    fitsUnsigned n v = true := by
  have hpow : 2 ^ m ≤ 2 ^ n := Nat.pow_le_pow_right Nat.two_pos hle
  simp only [fitsUnsigned, Bool.and_eq_true, decide_eq_true_eq] at h ⊢
  omega

/-- A width that is told for a number is one of the four and suits the number. -/
lemma leastWidth?_spec {p : ℕ → Bool} {n : ℕ} (h : leastWidth? p = some n) :
    n ∈ Width.all.map (·.bits) ∧ p n = true :=
  ⟨List.mem_of_find?_eq_some h, List.find?_some h⟩

/-- A field that a number suits holds it as a signed word, or as an unsigned one where the first
operand that tells a width tells that of the field or there is a vector. -/
lemma fits_of_suits_imm {opBits : Option ℕ} {vector : Bool} {w : Width} {v : ℤ}
    (h : (OperandType.imm w).Suits opBits vector (.imm v)) :
    fitsSigned w.bits v = true ∨
      (fitsUnsigned w.bits v = true ∧ (opBits = some w.bits ∨ vector = true)) := by
  have hhalf : ∀ u ∈ Width.all.map (·.bits), ∀ n ∈ Width.all.map (·.bits), u < n → u ≤ n / 2 := by
    decide
  obtain ⟨s, hs, hfit⟩ := h
  simp only [Operand.shape, immShape] at hs
  split at hs
  · cases hs
  · rename_i bits hsigned
    obtain ⟨hbits, hsigned⟩ := leastWidth?_spec hsigned
    obtain rfl := Except.ok.inj hs
    simp only [OperandType.fit] at hfit
    split_ifs at hfit with hle hnarrow
    · exact .inl (fitsSigned_mono hle hsigned)
    · simp only [Bool.and_eq_true, decide_eq_true_eq, Bool.or_eq_true, beq_iff_eq] at hnarrow
      obtain ⟨⟨hnarrower, hwide⟩, hwidth⟩ := hnarrow
      split at hnarrower
      · rename_i u hunsigned
        obtain ⟨hu, hunsigned⟩ := leastWidth?_spec hunsigned
        have hule := hhalf u hu bits hbits (by simpa using hnarrower)
        rw [Bool.and_eq_true] at hunsigned
        exact .inr ⟨fitsUnsigned_mono (hule.trans hwide) hunsigned.2, hwidth⟩
      · cases hnarrower
    · exact absurd rfl hfit

/-! ## What a form makes of a number -/

/-- The form takes the operands, and its field for a number among them can hold what a processor
extends to the number. -/
def Form.Represents (mnemonic : String) (f : Form) (ops : List Operand) : Prop :=
  List.Forall₂ (fun t o => t.takes o = true) f.types ops ∧ f.barred ≠ some ops ∧
    ∀ q ∈ f.rows ops, ∀ v w, q.2.2 = .imm v → q.1 = .imm w →
      ∃ x < 2 ^ w.bits, extended w.bits (f.valueBits mnemonic) x = wrapped (f.valueBits mnemonic) v

/-- What the form puts into its field of so many bits for a number, among the given operands,
extends to the number. -/
structure Form.Keeps (mnemonic : String) (f : Form) (ops : List Operand) (w : Width) (v : ℤ) :
    Prop where
  length_imm : (Placed.ofForm f ops).imm.length = w.bytes
  /-- The field has room for the number as a signed or as an unsigned word. -/
  fits : fitsSigned w.bits v = true ∨ fitsUnsigned w.bits v = true
  le_valueBits : w.bits ≤ f.valueBits mnemonic
  extended_eq : extended w.bits (f.valueBits mnemonic) (ofLittleEndian (Placed.ofForm f ops).imm) =
    wrapped (f.valueBits mnemonic) v
  /-- Where no operand tells the width of the field, so that the code may be one of a wider
  operation, the field extends to the number at any width. -/
  extended_eq_of_unnamed : AsmBridge.operationBits? ops ≠ some w.bits → anyVector ops = false →
    ∀ width ≥ w.bits, extended w.bits width (ofLittleEndian (Placed.ofForm f ops).imm) =
      wrapped width v

section

variable {entry : Table.Entry} {f : Form} {ops : List Operand}

/-- A form that takes a vector register has a type for vectors. -/
lemma any_isVector_of_takes (htakes : List.Forall₂ (fun t o => t.takes o = true) f.types ops)
    (h : anyVector ops = true) : f.types.any (·.isVector) = true := by
  obtain ⟨o, ho, hvector⟩ := List.any_eq_true.mp h
  obtain ⟨t, ht, htake⟩ := exists_of_mem_right htakes ho
  refine List.any_eq_true.mpr ⟨t, ht, ?_⟩
  cases o with
  | reg r =>
    cases t with
    | fixed q => simp_all [OperandType.takes, OperandType.isVector]
    | vector k n => rfl
    | vectorOrMem k n bits => rfl
    | mem bits => cases bits <;> cases htake
    | one => cases htake
    | imm w => cases htake
    | _ => cases r <;> simp_all [OperandType.takes, OperandType.takesGeneral, Register.isGeneral,
        Register.isVector]
  | _ => cases hvector

/-- The width that operands of such types tell first is one of theirs. -/
lemma exists_widths_of_operationBits? (htakes : List.Forall₂ (fun t o => t.takes o = true) f.types ops)
    {n : ℕ} (hn : n ≠ 0) (h : operationBits? ops = some n) :
    ∃ t ∈ f.types, n ∈ t.widths ∨ t = .mem none := by
  rw [operationBits?_eq] at h
  obtain ⟨o, ho, hbits⟩ := List.exists_of_findSome?_eq_some h
  obtain ⟨t, ht, htake⟩ := exists_of_mem_right htakes ho
  exact ⟨t, ht, (mem_widths_of_takes htake hbits).resolve_left hn⟩

/-- The number in a row of a chosen form is the one that the opcode implies, or its field keeps
it. -/
lemma keeps_of_suits (hentry : entry ∈ Table.entries) (hf : f ∈ entry.forms)
    (hsuits : List.Forall₂ (OperandType.Suits (operationBits? ops) (anyVector ops)) f.types ops)
    {q : Placed.Row} (hq : q ∈ f.rows ops) {v : ℤ} (hv : q.2.2 = .imm v) :
    (q.1 = .one ∧ v = 1) ∨ ∃ w, q.1 = .imm w ∧ f.Keeps entry.mnemonic ops w v := by
  have htakes : List.Forall₂ (fun t o => t.takes o = true) f.types ops :=
    hsuits.imp fun _ _ ⟨_, hs, hfit⟩ => OperandType.takes_of_fit hs hfit
  have htake := Placed.takes_of_mem_rows htakes hq
  have hsuit := Placed.rel_of_mem_rows hsuits hq
  rw [hv] at htake hsuit
  cases ht : q.1 with
  | one =>
    rw [ht] at htake
    exact .inl ⟨rfl, by simpa [OperandType.takes] using htake⟩
  | imm w =>
    refine .inr ⟨w, rfl, ?_⟩
    rw [ht] at hsuit
    have hregular := (Table.isRegular entry hentry).form f hf
    have hreadable := hregular.readable
    obtain ⟨hplace, hle, hcount⟩ := hregular.value _ (Placed.mem_zip_of_mem_rows hq) w
      (by simp [ht, OperandType.immWidth?])
    have himm : (Placed.ofForm f ops).imm = Placed.immBytes (.imm w) (.imm v) := by
      rw [Placed.ofForm_imm hreadable htakes.length_eq hq hplace, ht, hv]
    have hpos : 8 ≤ w.bits := by cases w <;> decide
    have hfits := fits_of_suits_imm hsuit
    refine ⟨?_, hfits.imp_right And.left, hle, ?_, ?_⟩
    · rw [himm, Placed.length_immBytes]
    · rw [himm, Placed.ofLittleEndian_immBytes]
      rcases hfits with hsigned | ⟨-, hwidth⟩
      · exact extended_of_fitsSigned (by omega) hle hsigned
      · -- An unsigned word is only taken as it is.
        have hsame : f.valueBits entry.mnemonic = w.bits := by
          cases hc : f.takesCount entry.mnemonic with
          | true =>
            have height : f.valueBits entry.mnemonic = 8 := by rw [Form.valueBits, hc, if_pos rfl]
            omega
          | false =>
            rcases hwidth with hbits | hvector
            · obtain ⟨t, ht, hmem⟩ := exists_widths_of_operationBits? htakes (by omega) hbits
              obtain ⟨hany, hwidths⟩ := hcount hc t ht
              exact (hwidths _ (hmem.resolve_right hany)).symm
            · rw [Form.takesCount, any_isVector_of_takes htakes hvector, Bool.or_true] at hc
              cases hc
        rw [hsame, extended_self]
    · intro hunnamed hvector width hwidth
      rw [himm, Placed.ofLittleEndian_immBytes]
      rcases hfits with hsigned | ⟨-, hbits | hbits⟩
      · exact extended_of_fitsSigned (by omega) hwidth hsigned
      · exact absurd hbits hunnamed
      · rw [hvector] at hbits
        cases hbits
  | mem bits =>
    rw [ht] at htake
    cases bits <;> cases htake
  | _ =>
    rw [ht] at htake
    cases htake

/-- A chosen form represents its operands. -/
lemma represents_of_selectForm (hentry : entry ∈ Table.entries)
    (h : selectForm entry.mnemonic entry.forms ops = .ok f) : f.Represents entry.mnemonic ops := by
  obtain ⟨hf, htakes, hbarred⟩ := selectForm_spec h
  obtain ⟨-, hsuits, -⟩ := suits_of_selectForm h
  refine ⟨htakes, hbarred, fun q hq v w hv hw => ?_⟩
  rcases keeps_of_suits hentry hf hsuits hq hv with ⟨hone, -⟩ | ⟨w', hw', hkeeps⟩
  · rw [hw] at hone
    cases hone
  · obtain rfl := OperandType.imm.inj (hw.symm.trans hw')
    refine ⟨_, ?_, hkeeps.extended_eq⟩
    have hpow : 256 ^ w.bytes = 2 ^ w.bits := by cases w <;> rfl
    rw [← hpow, ← hkeeps.length_imm]
    exact ofLittleEndian_lt _

/-- The operands of the rows of a form that takes them are the operands, in order. -/
lemma map_rows (hf : f.IsReadable) (hlen : f.types.length = ops.length) :
    (f.rows ops).map (·.2.2) = ops := by
  have hcomp : (fun q : Placed.Row => q.2.2) = Prod.snd ∘ Prod.snd := rfl
  have hlength := hf.length_slots
  rw [Form.rows, hcomp, ← List.map_map, List.map_snd_zip, List.map_snd_zip]
  · omega
  · rw [List.length_zip]
    omega

end

/-- A number among the operands for which a form is chosen is kept: the opcode implies it, or the
field that the code has for it extends to it. Where no form of the instruction can represent the
operands there is no code, and they are refused, unless one of them cannot be written. -/
theorem encodeFully_keepsImmediates {mnemonic : String} {entry : Table.Entry}
    (hentry : Table.lookup? mnemonic = some entry) (mark : Option String) (ops : List Operand) :
    (∀ f, selectForm entry.mnemonic entry.forms ops = .ok f →
      (f.rows ops).map (·.2.2) = ops ∧ ∀ q ∈ f.rows ops, ∀ v, q.2.2 = .imm v →
        (q.1 = .one ∧ v = 1) ∨ ∃ w, q.1 = .imm w ∧ f.Keeps entry.mnemonic ops w v) ∧
    (∀ e, encodeFully mnemonic mark ops = .ok e →
      selectForm entry.mnemonic entry.forms ops = .ok e.form ∧
        e.code.imm = (Placed.ofForm e.form ops).imm) ∧
    ((∀ f ∈ entry.forms, ¬ f.Represents entry.mnemonic ops) →
      ∃ e, encodeFully mnemonic mark ops = .error e ∧
        (IsRefusedOr (∃ o ∈ ops, o.IsUnwritable) e ∨
          (e = .unnamedWidth ∧ ∃ o ∈ ops, o.text? = none))) := by
  have hmem := Table.mem_of_lookup? hentry
  refine ⟨fun f hf => ?_, fun e he => ?_, fun hnone => ?_⟩
  · obtain ⟨hlisted, hsuits, -⟩ := suits_of_selectForm hf
    exact ⟨map_rows (Form.IsListed.isReadable ⟨entry, hmem, hlisted⟩) hsuits.length_eq,
      fun q hq v hv => keeps_of_suits hmem hlisted hsuits hq hv⟩
  · rw [encodeFully, hentry] at he
    obtain ⟨f, hf, he⟩ := bind_eq_ok.mp he
    obtain ⟨c, hc, he⟩ := bind_eq_ok.mp he
    obtain rfl := pure_eq_ok.mp he
    obtain ⟨field, address, byte, lead, -, -, -, -, rfl⟩ := Form.assemble_eq hc
    exact ⟨hf, rfl⟩
  · rw [encodeFully, hentry]
    cases hf : selectForm entry.mnemonic entry.forms ops with
    | ok f =>
      obtain ⟨hlisted, -⟩ := selectForm_spec hf
      exact absurd (represents_of_selectForm hmem hf) (hnone f hlisted)
    | error e => exact ⟨e, bind_eq_error.mpr (.inl hf), failsWith_selectForm _ _ _ e hf⟩

/-- The greatest unsigned word of 32 bits is kept where it is added to a register of that width. -/
theorem encodeFully_keepsImmediates_of_add :
    let ops : List Operand := [.reg (.gp .w32 3), .imm 0xffffffff]
    ∃ f, Table.lookup? "add" = some ⟨"add", Table.aluForms 0⟩ ∧
      selectForm "add" (Table.aluForms 0) ops = .ok f ∧ f.Keeps "add" ops .w32 0xffffffff := by
  intro ops
  have hentry : Table.lookup? "add" = some ⟨"add", Table.aluForms 0⟩ := rfl
  obtain ⟨f, hf, htypes⟩ : ∃ f, selectForm "add" (Table.aluForms 0) ops = .ok f ∧
      f.types = [.gpOrMem .w32, .imm .w32] ∧ f.slots = [⟨.rm, .readWrite⟩, ⟨.imm, .read⟩] :=
    exists_ok_of_any (by decide)
  obtain ⟨-, hkeeps⟩ := (encodeFully_keepsImmediates hentry none ops).1 f hf
  have hrow : ((.imm .w32, ⟨.imm, .read⟩, .imm 0xffffffff) : Placed.Row) ∈ f.rows ops := by
    rw [Form.rows, htypes.1, htypes.2]
    decide
  rcases hkeeps _ hrow _ rfl with ⟨hone, -⟩ | ⟨w, hw, hkeep⟩
  · cases hone
  · obtain rfl := OperandType.imm.inj hw
    exact ⟨f, hentry, hf, hkeep⟩

/-- A number below zero with more than 4300 digits. -/
def unwritableNumber : ℤ := -(16 ^ 3600 + 2 ^ 40)

/-- No form of the addition to a register of 64 bits can represent such a number, but the operands
are not refused. -/
theorem not_refused_of_unwritable :
    Table.lookup? "add" = some ⟨"add", Table.aluForms 0⟩ ∧
      (∀ f ∈ Table.aluForms 0, ¬ f.Represents "add" [.reg .rax, .imm unwritableNumber]) ∧
      encodeFully "add" none [.reg .rax, .imm unwritableNumber] = .error .immediateUnwritable ∧
      EncodeError.immediateUnwritable.isRefusal = false := by
  refine ⟨rfl, ?_, ?_, rfl⟩
  · rintro f hf ⟨htakes, -, hfield⟩
    have hrow : ∀ f ∈ Table.aluForms 0,
        List.Forall₂ (fun t o => t.takes o = true) f.types [.reg .rax, .imm unwritableNumber] →
        ∃ q ∈ f.rows [.reg .rax, .imm unwritableNumber], q.2.2 = .imm unwritableNumber ∧
          ∃ w ∈ [Width.w8, .w32], q.1 = .imm w ∧ f.valueBits "add" = 64 := by
      decide +kernel
    obtain ⟨q, hq, hv, w, hw, ht, hbits⟩ := hrow f hf htakes
    obtain ⟨x, -, hx⟩ := hfield q hq _ w hv ht
    have hwidth : 0 < w.bits ∧ w.bits ≤ 32 := by
      simp only [List.mem_cons, List.not_mem_nil, or_false] at hw
      rcases hw with rfl | rfl <;> decide
    obtain ⟨z, hz, hextended⟩ :
        ∃ z, fitsSigned w.bits z = true ∧ extended w.bits 64 x = wrapped 64 z :=
      exists_fitsSigned_of_extended hwidth.1 (by omega) x
    have hz32 := fitsSigned_mono hwidth.2 hz
    have hword : wrapped 64 unwritableNumber = 2 ^ 64 - 2 ^ 40 := by decide +kernel
    rw [hbits, hextended, hword, wrapped] at hx
    simp only [fitsSigned, Bool.and_eq_true, decide_eq_true_eq] at hz32
    omega
  · have hshapes : shapes [.reg .rax, .imm unwritableNumber] = .error .immediateUnwritable := by
      decide +kernel
    exact bind_eq_error.mpr (.inl (bind_eq_error.mpr (.inl hshapes)))

end AsmBridge
