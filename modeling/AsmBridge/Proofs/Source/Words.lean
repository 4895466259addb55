import AsmBridge.Proofs.Source.Spellings
import AsmBridge.Proofs.Encoding.Refusal
import Mathlib.Data.Nat.Digits.Defs

/-!
# Words

An operand without blanks, colons and brackets is a word, which names a register, is a number or
else a symbol. Registers and symbols are read from their names, and a number from the text that an
immediate has, as long as it can be written (`readOperand_imm`).
-/

namespace AsmBridge

lemma Register.mem_all (r : Register) : r ∈ Register.all := by
  have hwidth : ∀ w : Width, w ∈ Width.all := fun w => by cases w <;> decide
  cases r <;> simp [Register.all, Register.numbers, hwidth]

namespace Source

variable {line : Option ℕ} {t ds : List Char} {c : Char}

/-- A register is known by its name. -/
lemma register?_name (r : Register) : register? r.name.toList = some r := by
  have hall : ∀ r ∈ Register.all, register? (Text.chars r.name) = some r := by decide +kernel
  rw [← Text.chars_eq_toList]
  exact hall r r.mem_all

/-! ## Texts without blanks -/

/-- The operand that a word is: a register, a number or a symbol. -/
def readWord (line : Option ℕ) (t : List Char) : Except Fault Operand :=
  match register? t with
  | some .rip => .error (defectAt line (String.ofList t) .ripAsOperand)
  | some r => .ok (.reg r)
  | none =>
    if isNumber t then (number t).map .imm
    else if isSymbol t then .ok (.sym (String.ofList t))
    else .error (defectAt line (String.ofList t) (.operandUnreadable (String.ofList t)))

/-- Letters and digits, a sign and the like are none of the characters that the reader of operands
looks for. -/
lemma ne_of_isSumChar (h : isSumChar c = true) : c ≠ ':' ∧ c ≠ ']' ∧ c ≠ '[' ∧ c ≠ ',' := by
  have hbesides : ∀ d ∈ [':', ']', '[', ','], isSumChar d = false := by decide
  have hne : ∀ d ∈ [':', ']', '[', ','], c ≠ d := by
    rintro d hd rfl
    exact absurd h (by simp [hbesides c hd])
  exact ⟨hne _ (by decide), hne _ (by decide), hne _ (by decide), hne _ (by decide)⟩

/-- The characters of terms and signs make a word. -/
lemma readOperand_of_sumChars (h : ∀ c ∈ t, isSumChar c = true) (hoffset : isOffset t = false) :
    readOperand line t = readWord line t := by
  have hsegmented : isSegmented t = false := by
    unfold isSegmented
    split
    · exact absurd rfl (ne_of_isSumChar (h ':' (by simp))).1
    · rfl
  have hbracket : (t.getLast? == some ']') = false := by
    rw [beq_eq_false_iff_ne]
    exact fun hlast => absurd rfl (ne_of_isSumChar (h _ (List.mem_of_getLast? hlast))).2.1
  rw [readOperand, width?_of_forall fun c hc => (plain_of_isSumChar (h c hc)).1]
  simp only [hoffset, hsegmented, hbracket, Bool.false_eq_true, if_false, Option.isSome_none]
  rfl

lemma isSumChar_of_spells {x : Summand} (h : Spells t x) : ∀ c ∈ t, isSumChar c = true :=
  fun c hc => by simp [isSumChar, h.plain.2 c hc]

lemma readOperand_register {r : Register} (hr : r ≠ .rip) :
    readOperand line r.name.toList = .ok (.reg r) := by
  have hall : ∀ r ∈ Register.all, isOffset (Text.chars r.name) = false := by decide +kernel
  have hoffset := hall r r.mem_all
  rw [Text.chars_eq_toList] at hoffset
  have hname := register?_name r
  rw [readOperand_of_sumChars (isSumChar_of_spells (.register hname)) hoffset, readWord, hname]
  cases r <;> first | rfl | exact absurd rfl hr

lemma readOperand_symbol {name : String} (hname : IsSymbol name)
    (hregister : register? name.toList = none) (hoffset : isOffset name.toList = false) :
    readOperand line name.toList = .ok (.sym name) := by
  obtain ⟨hsymbol, hnumber, -⟩ := isSymbol_of_isSymbol hname
  rw [readOperand_of_sumChars (isSumChar_of_spells (.symbol hname hregister)) hoffset, readWord,
    hregister]
  simp only [hnumber, hsymbol, Bool.false_eq_true, if_false, if_true, String.ofList_toList]

/-! ## Numbers -/

lemma isNumeral_hexDigits (width n : ℕ) : IsNumeral ('0' :: 'x' :: Text.hexDigits width n) n := by
  have hrow : IsDigitRow 16 (Text.hexDigits width n) :=
    ⟨hexDigits_ne_nil width n, fun c hc => (digit_of_mem_hexDigits hc).2.2⟩
  have hvalue : digitsValue 16 (Text.hexDigits width n) = n :=
    Option.some.inj ((digits?_of_isDigitRow hrow).symm.trans (digits?_hexDigits width n))
  have hnumeral := IsNumeral.hexadecimal hrow (.inl rfl)
  rwa [hvalue] at hnumeral

/-- The decimal digits of a positive number do not begin with zero. -/
lemma head?_toDigits {n : ℕ} (hn : n ≠ 0) : (Nat.toDigits 10 n).head? ≠ some '0' := by
  induction n using Nat.strongRecOn with
  | _ n ih =>
    by_cases hdigit : n < 10
    · interval_cases n
      · exact absurd rfl hn
      all_goals decide
    · rw [Nat.toDigits_of_base_le (by decide) (Nat.le_of_not_lt hdigit),
        List.head?_append_of_ne_nil _ Nat.toDigits_ne_nil]
      exact ih (n / 10) (by omega) (by omega)

lemma isNumeral_toDigits (n : ℕ) : IsNumeral (Nat.toDigits 10 n) n := by
  have hrow : IsDigitRow 10 (Nat.toDigits 10 n) := by
    refine ⟨Nat.toDigits_ne_nil, fun c hc => ?_⟩
    obtain ⟨d, hd, rfl⟩ := mem_toDigits (by decide) hc
    rw [digitIn?_digitChar (by decide) hd]
    rfl
  have hvalue : digitsValue 10 (Nat.toDigits 10 n) = n :=
    Option.some.inj
      ((digits?_of_isDigitRow hrow).symm.trans (digits?_toDigits (by decide) (by decide) n))
  have hlead : (Nat.toDigits 10 n).head? = some '0' → Nat.toDigits 10 n = ['0'] := by
    intro hzero
    obtain rfl : n = 0 := by_contra fun hn => head?_toDigits hn hzero
    rfl
  have hnumeral := IsNumeral.decimal hrow hlead
  rwa [hvalue] at hnumeral

/-- A number that can be written can be read again. -/
lemma isTooLong_toDigits {n : ℕ} (h : Text.isWritable n = true) :
    isTooLong (Nat.toDigits 10 n) = false := by
  have hlength : (Nat.toDigits 10 n).length ≤ Text.digitLimit :=
    Nat.toDigits_length 10 n Text.digitLimit (by decide) (of_decide_eq_true h)
  have hlimit : decide (Text.digitLimit < (Nat.toDigits 10 n).length) = false :=
    decide_eq_false (Nat.not_lt.mpr hlength)
  rw [isTooLong, hlimit, Bool.and_false]

/-- A sign in front of a numeral makes a negative number of it. -/
lemma number_negated {n : ℕ} (h : IsNumeral ds n) (hshort : isTooLong ds = false) :
    isNumber ('-' :: ds) = true ∧ number ('-' :: ds) = .ok (-(n : ℤ)) := by
  have hsign : ∀ c ∈ ds.head?, isSign c = false := fun c hc =>
    (plain_of_isAlphanum (h.isAlphanum c (List.mem_of_mem_head? hc))).2.2
  have hdrop : ds.dropWhile (fun c => c == '+' || c == '-') = ds := by
    cases ds with
    | nil => rfl
    | cons c ds => exact List.dropWhile_cons_of_neg (by simpa [isSign] using hsign c rfl)
  have hminus : (ds.head? == some '-') = false := by
    rw [beq_eq_false_iff_ne]
    exact fun hhead => absurd (hsign '-' hhead) (by decide)
  have hread := number?_of_isNumeral h
  rw [hshort, if_neg Bool.false_ne_true, number?, hdrop, hminus] at hread
  simp only [Bool.false_eq_true, if_false, Option.map_id'] at hread
  have hnegative : number? ('-' :: ds) = some (-(n : ℤ)) := by
    have hfront : ('-' :: ds).dropWhile (fun c => c == '+' || c == '-') = ds :=
      (List.dropWhile_cons_of_pos rfl).trans hdrop
    rw [number?, hfront]
    exact congrArg (Option.map fun v => -v) hread
  refine ⟨?_, by rw [number, hnegative]⟩
  exact (isNumber_eq hsign).symm.trans (isNumber_of_isNumeral h)

lemma toList_hex (width n : ℕ) : (Text.hex width n).toList = Text.hexDigits width n :=
  String.toList_ofList

lemma toList_hexInt (n : ℕ) : (Text.hexInt n).toList = Text.hexDigits 1 n := by
  have hsign : ¬ (n : ℤ) < 0 := not_lt.mpr (Int.natCast_nonneg n)
  rw [Text.hexInt, if_neg hsign, toList_hex]
  rfl

/-- An immediate is written as a numeral behind its sign. -/
lemma exists_isNumeral_immText {v : ℤ} (h : ¬ (Operand.imm v).IsUnwritable) :
    ∃ ds, IsNumeral ds v.natAbs ∧ isTooLong ds = false ∧
      (Operand.immText v).toList = if v < 0 then '-' :: ds else ds := by
  rcases lt_or_ge v 0 with hv | hv
  · obtain ⟨m, rfl⟩ := Int.eq_negSucc_of_lt_zero hv
    have hwritable : Text.isWritable (m + 1 : ℕ) = true := by
      by_contra hlong
      exact h ⟨_, hv, rfl, Bool.eq_false_iff.mpr hlong⟩
    refine ⟨_, isNumeral_toDigits (m + 1), isTooLong_toDigits hwritable, ?_⟩
    rw [if_pos hv, Operand.immText, if_pos (by omega)]
    have hdigits : (Nat.repr (m + 1)).toList = Nat.toDigits 10 (m + 1) := by
      rw [Nat.repr, String.toList_ofList]
    exact String.toList_append.trans (congrArg ('-' :: ·) hdigits)
  · obtain ⟨n, rfl⟩ := Int.eq_ofNat_of_zero_le hv
    simp only [Operand.immText, if_neg (not_lt.mpr hv)]
    split_ifs with hsmall
    · have hn : n ≤ 9 := by exact_mod_cast hsmall
      refine ⟨_, isNumeral_toDigits n, ?_, ?_⟩
      · interval_cases n <;> rfl
      · interval_cases n <;> rfl
    · refine ⟨_, isNumeral_hexDigits 1 n, rfl, ?_⟩
      rw [String.toList_append, toList_hexInt]
      rfl

/-- A text that begins with a digit does not begin like the word for an absolute address. -/
lemma isOffset_of_isDigit (h : c.isDigit = true) (s : List Char) : isOffset (c :: s) = false := by
  have hall : ∀ n < 58, 48 ≤ n →
      Text.capitals (Char.ofNat n) = [Char.ofNat n] ∧ Char.ofNat n ≠ 'O' := by decide
  have hrange := toNat_of_isDigit h
  obtain ⟨hself, hne⟩ := hall c.toNat (by omega) hrange.1
  rw [Char.ofNat_toNat] at hself hne
  rw [isOffset, List.flatMap_cons, hself]
  exact Bool.and_eq_false_iff.mpr (.inl (beq_eq_false_iff_ne.mpr hne.symm))

/-- A number that is not refused by the writer is read from its text. -/
lemma readOperand_imm {v : ℤ} (h : ¬ (Operand.imm v).IsUnwritable) :
    readOperand line (Operand.immText v).toList = .ok (.imm v) := by
  obtain ⟨ds, hds, hshort, htext⟩ := exists_isNumeral_immText h
  have hoffset : isOffset ds = false := by
    obtain ⟨c, rest, rfl⟩ := List.exists_cons_of_ne_nil hds.ne_nil
    exact isOffset_of_isDigit (isDigit_of_isNumeral hds c rfl) rest
  have hchars := isSumChar_of_spells (.number hds)
  rw [htext]
  split_ifs with hv
  · have hall : ∀ c ∈ '-' :: ds, isSumChar c = true := List.forall_mem_cons.mpr ⟨rfl, hchars⟩
    obtain ⟨hnumber, hvalue⟩ := number_negated hds hshort
    rw [readOperand_of_sumChars hall rfl, readWord, register?_of_sign]
    simp only [hnumber, hvalue, if_true]
    rw [Int.ofNat_natAbs_of_nonpos hv.le, neg_neg]
    rfl
  · rw [readOperand_of_sumChars hchars hoffset, readWord, register?_of_isNumeral hds]
    have hvalue : number ds = .ok v := by
      rw [number, number?_of_isNumeral hds, hshort, if_neg Bool.false_ne_true,
        Int.natAbs_of_nonneg (not_lt.mp hv)]
    simp only [isNumber_of_isNumeral hds, hvalue, if_true]
    rfl

end Source

end AsmBridge
