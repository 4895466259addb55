import AsmBridge.Proofs.Source.Numbers
import AsmBridge.Proofs.Source.Stops

/-!
# Numerals

A numeral is decimal, octal behind a zero or hexadecimal behind `0x`. It is read as its value, but
for a decimal one of too many digits (`number?_of_isNumeral`), and what is read as a number is a
numeral, possibly with a line break behind it (`exists_isNumeral`).
-/

namespace AsmBridge.Source

/-- The value of a row of digits. -/
def digitsValue (base : ℕ) (ds : List Char) : ℕ :=
  ds.foldl (fun v c => v * base + (Text.digitIn? base c).getD 0) 0

/-- One digit of the base or more. -/
structure IsDigitRow (base : ℕ) (ds : List Char) : Prop where
  ne_nil : ds ≠ []
  digits : ∀ c ∈ ds, (Text.digitIn? base c).isSome = true

/-- The text is a numeral of the value. -/
inductive IsNumeral : List Char → ℕ → Prop
  | decimal {ds : List Char} (hrow : IsDigitRow 10 ds) (hlead : ds.head? = some '0' → ds = ['0']) :
    IsNumeral ds (digitsValue 10 ds)
  | octal {ds : List Char} (hrow : IsDigitRow 8 ds) : IsNumeral ('0' :: ds) (digitsValue 8 ds)
  | hexadecimal {ds : List Char} {x : Char} (hrow : IsDigitRow 16 ds) (hx : x = 'x' ∨ x = 'X') :
    IsNumeral ('0' :: x :: ds) (digitsValue 16 ds)

/-- A decimal numeral of more digits than are read. -/
def isTooLong (ds : List Char) : Bool :=
  ds.head? != some '0' && Text.digitLimit < ds.length

variable {base n : ℕ} {ds t : List Char} {c : Char}

/-! ## Digits -/

lemma isAlpha_eq (c : Char) : c.isAlpha = (c.isUpper || c.isLower) := rfl

lemma isAlphanum_of_digitIn? (h : (Text.digitIn? base c).isSome = true) : c.isAlphanum = true := by
  unfold Text.digitIn? at h
  rw [Char.isAlphanum, isAlpha_eq]
  dsimp only at h
  split_ifs at h <;> simp_all

lemma toNat_of_isDigit (h : c.isDigit = true) : 48 ≤ c.toNat ∧ c.toNat ≤ 57 :=
  (Bool.and_eq_true_iff.mp h).imp of_decide_eq_true of_decide_eq_true

lemma toNat_of_isUpper (h : c.isUpper = true) : 65 ≤ c.toNat ∧ c.toNat ≤ 90 :=
  of_decide_eq_true h

lemma toNat_of_isLower (h : c.isLower = true) : 97 ≤ c.toNat ∧ c.toNat ≤ 122 :=
  (Bool.and_eq_true_iff.mp h).imp of_decide_eq_true of_decide_eq_true

/-- In a base up to ten only decimal digits are digits. -/
lemma isDigit_of_digitIn? (hbase : base ≤ 10) (h : (Text.digitIn? base c).isSome = true) :
    c.isDigit = true := by
  by_contra hdigit
  have hlower : c.isLower = true → ¬ c.toNat - 87 < base := fun h => by
    have hcode := toNat_of_isLower h
    omega
  have hupper : c.isUpper = true → ¬ c.toNat - 55 < base := fun h => by
    have hcode := toNat_of_isUpper h
    omega
  simp only [Text.digitIn?, hdigit, if_false] at h
  split_ifs at h <;> simp_all

lemma digitIn?_of_isDigit (h : c.isDigit = true) : (Text.digitIn? 10 c).isSome = true := by
  have hcode := toNat_of_isDigit h
  have hvalue : c.toNat - 48 < 10 := by omega
  simp [Text.digitIn?, h, hvalue]

lemma isAlphanum_of_toLower (h : c.toLower.isAlphanum = true) : c.isAlphanum = true := by
  cases hupper : c.isUpper with
  | true => simp [Char.isAlphanum, isAlpha_eq, hupper]
  | false =>
    have hself : c.toLower = c := dif_neg (of_decide_eq_false hupper)
    rwa [hself] at h

lemma isBlank_of_isAlphanum (h : c.isAlphanum = true) : Text.isBlank c = false :=
  Text.isBlank_eq_false_of_isWord (by simp [Text.isWord, h])

/-- A letter or digit is read as itself; it is no sign and no blank. -/
lemma plain_of_isAlphanum (h : c.isAlphanum = true) :
    Text.isNumberBlank c = false ∧ Text.asciiDigit c = c ∧ isSign c = false := by
  have hsign : isSign c = false := by
    rw [isSign, Bool.or_eq_false_iff, beq_eq_false_iff_ne, beq_eq_false_iff_ne]
    constructor <;> rintro rfl <;> exact absurd h (by decide)
  have hcode : 48 ≤ c.toNat ∧ c.toNat ≤ 127 := by
    simp only [Char.isAlphanum, isAlpha_eq, Bool.or_eq_true] at h
    obtain (hupper | hlower) | hdigit := h
    · have hrange := toNat_of_isUpper hupper
      omega
    · have hrange := toNat_of_isLower hlower
      omega
    · have hrange := toNat_of_isDigit hdigit
      omega
  have hdigit : Text.asciiDigit c = c := by
    rw [Text.asciiDigit, Text.digit?]
    cases c.isDigit with
    | true =>
      have hback : 48 + (c.toNat - 48) = c.toNat := by omega
      simp [hback]
    | false => simp [hcode.2]
  exact ⟨by simp [Text.isNumberBlank, isBlank_of_isAlphanum h], hdigit, hsign⟩

lemma IsDigitRow.isAlphanum (h : IsDigitRow base ds) : ∀ c ∈ ds, c.isAlphanum = true :=
  fun c hc => isAlphanum_of_digitIn? (h.digits c hc)

lemma ne_underscore_of_isAlphanum (h : c.isAlphanum = true) : c ≠ '_' := by
  rintro rfl
  exact absurd h (by decide)

lemma groupedDigits_of_digits (h : ∀ c ∈ ds, (Text.digitIn? base c).isSome = true) (acc : ℕ) :
    Text.groupedDigits base acc ds =
      some (ds.foldl (fun v c => v * base + (Text.digitIn? base c).getD 0) acc) := by
  induction ds generalizing acc with
  | nil => rfl
  | cons c ds ih =>
    obtain ⟨hc, hds⟩ := List.forall_mem_cons.mp h
    have hne := ne_underscore_of_isAlphanum (isAlphanum_of_digitIn? hc)
    obtain ⟨d, hd⟩ := Option.isSome_iff_exists.mp hc
    rw [groupedDigits_cons hne, hd, Option.bind_some, ih hds, List.foldl_cons, hd]
    rfl

/-- Letters and digits that are read as digits of a base are such. -/
lemma digits_of_groupedDigits (hplain : ∀ c ∈ ds, c.isAlphanum = true) {acc : ℕ}
    (h : Text.groupedDigits base acc ds = some n) :
    ∀ c ∈ ds, (Text.digitIn? base c).isSome = true := by
  induction ds generalizing acc with
  | nil => simp
  | cons c ds ih =>
    obtain ⟨hc, hplain⟩ := List.forall_mem_cons.mp hplain
    rw [groupedDigits_cons (ne_underscore_of_isAlphanum hc)] at h
    obtain ⟨d, hd, h⟩ := Option.bind_eq_some_iff.mp h
    exact List.forall_mem_cons.mpr ⟨by rw [hd]; rfl, ih hplain h⟩

lemma digits?_of_isDigitRow (h : IsDigitRow base ds) :
    Text.digits? base ds = some (digitsValue base ds) := by
  rw [digits?_eq h.ne_nil, groupedDigits_of_digits h.digits, digitsValue]
  exact fun c hc => ne_underscore_of_isAlphanum (h.isAlphanum c (List.mem_of_mem_head? hc))

/-! ## Literals -/

/-- The base in which a number is read, by the beginning of its digits. -/
def radixOf : List Char → Text.Radix
  | '0' :: c :: _ => if c == 'x' || c == 'X' then .marked else .octal
  | _ => .marked

/-- Letters and digits are read without what stands behind them if that is blank. -/
lemma number?_of_isAlphanum (back : List Char) (hne : ds ≠ [])
    (hds : ∀ c ∈ ds, c.isAlphanum = true) (hback : ∀ c ∈ back, Text.isNumberBlank c = true) :
    number? (ds ++ back) =
      (Text.magnitude (radixOf (ds ++ back)) ds).toOption.map fun n : ℕ => (n : ℤ) := by
  obtain ⟨c, rest, rfl⟩ := List.exists_cons_of_ne_nil hne
  obtain ⟨hblank, -, hsign⟩ := plain_of_isAlphanum (hds c List.mem_cons_self)
  have htrim : Text.trimNumber (c :: rest ++ back) = c :: rest := by
    have hlast : ∀ d ∈ (c :: rest).getLast?, Text.isNumberBlank d = false := fun d hd =>
      (plain_of_isAlphanum (hds d (List.mem_of_getLast? hd))).1
    have hself : Text.trimNumber (c :: rest) = c :: rest :=
      trimNumber_eq_self (by simpa using hblank) hlast
    rw [Text.trimNumber, List.dropWhile_cons_of_neg (by simp [hblank])] at hself
    rw [Text.trimNumber, List.cons_append, List.dropWhile_cons_of_neg (by simp [hblank]),
      ← List.cons_append, List.reverse_append,
      List.dropWhile_append_of_pos (by simpa using hback), hself]
  have hascii : (c :: rest).map Text.asciiDigit = c :: rest :=
    (List.map_congr_left fun d hd => (plain_of_isAlphanum (hds d hd)).2.1).trans (List.map_id _)
  have hread : ∀ radix, Text.integer? radix (c :: rest ++ back) =
      (Text.magnitude radix (c :: rest)).toOption.map fun n : ℕ => (n : ℤ) := by
    intro radix
    rw [Text.integer?, Text.integer, htrim, hascii]
    split
    · rename_i heq
      obtain ⟨rfl, -⟩ := List.cons.inj heq
      exact absurd hsign (by decide)
    · rename_i heq
      obtain ⟨rfl, -⟩ := List.cons.inj heq
      exact absurd hsign (by decide)
    · cases Text.magnitude radix (c :: rest) <;> rfl
  have hminus : (some c == some '-') = false := by
    rw [beq_eq_false_iff_ne]
    rintro ⟨⟩
    exact absurd hsign (by decide)
  have hdrop : (c :: rest ++ back).dropWhile (fun c => c == '+' || c == '-') = c :: rest ++ back :=
    List.dropWhile_cons_of_neg (by simpa [isSign] using hsign)
  rw [number?, hdrop, List.cons_append, List.head?_cons, hminus, ← List.cons_append]
  simp only [Bool.false_eq_true, if_false, Option.map_id']
  exact hread (radixOf (c :: rest ++ back))

lemma radixOf_of_head (h : ds.head? ≠ some '0') : radixOf ds = .marked := by
  unfold radixOf
  split
  · exact absurd rfl h
  · rfl

lemma magnitude_decimal (h : IsDigitRow 10 ds) (hhead : ds.head? ≠ some '0') :
    (Text.magnitude .marked ds).toOption =
      if isTooLong ds then none else some (digitsValue 10 ds) := by
  have hdigits : ∀ c ∈ ds, c.isDigit = true := fun c hc =>
    isDigit_of_digitIn? le_rfl (h.digits c hc)
  have hrun : ds.takeWhile (fun c => c.isDigit || c == '_') = ds := by
    rw [List.takeWhile_eq_self_iff]
    exact fun c hc => by simp [hdigits c hc]
  have hcount : ds.countP (·.isDigit) = ds.length := List.countP_eq_length.mpr hdigits
  have hread : Text.magnitude .marked ds = Text.decimalDigits ds := by
    unfold Text.magnitude
    split <;> first | rfl | contradiction
  have hlong : isTooLong ds = decide (Text.digitLimit < ds.length) := by
    simp [isTooLong, hhead]
  rw [hread, Text.decimalDigits, hrun, hcount, digits?_of_isDigitRow h, hlong]
  simp only [Option.isSome_some, Bool.and_true]
  split_ifs <;> rfl

/-- Behind a zero digits are read as octal ones. -/
lemma radixOf_octal (back : List Char) (hne : ds ≠ []) (h : ∀ c ∈ ds, c.isDigit = true) :
    radixOf ('0' :: ds ++ back) = .octal ∧
      (Text.magnitude .octal ('0' :: ds)).toOption = Text.digits? 8 ('0' :: ds) := by
  obtain ⟨c, rest, rfl⟩ := List.exists_cons_of_ne_nil hne
  have hletters : ∀ d ∈ ['x', 'X', 'o', 'O'], c ≠ d := by
    rintro d hd rfl
    have hnone : ∀ d ∈ ['x', 'X', 'o', 'O'], d.isDigit = false := by decide
    exact absurd (h c List.mem_cons_self) (by simp [hnone c hd])
  constructor
  · simp [radixOf, hletters 'x' (by decide), hletters 'X' (by decide)]
  · unfold Text.magnitude
    split
    case h_10 => cases Text.digits? 8 ('0' :: c :: rest) <;> rfl
    all_goals simp_all

lemma magnitude_octal (h : IsDigitRow 8 ds) :
    (Text.magnitude (radixOf ('0' :: ds)) ('0' :: ds)).toOption = some (digitsValue 8 ds) := by
  have hdigits : ∀ c ∈ ds, c.isDigit = true := fun c hc =>
    isDigit_of_digitIn? (by decide) (h.digits c hc)
  have hrow : IsDigitRow 8 ('0' :: ds) :=
    ⟨List.cons_ne_nil _ _, List.forall_mem_cons.mpr ⟨by decide, h.digits⟩⟩
  obtain ⟨hradix, hread⟩ := radixOf_octal [] h.ne_nil hdigits
  rw [List.append_nil] at hradix
  rw [hradix, hread]
  exact digits?_of_isDigitRow hrow

lemma magnitude_hexadecimal (h : IsDigitRow 16 ds) {x : Char} (hx : x = 'x' ∨ x = 'X') :
    (Text.magnitude (radixOf ('0' :: x :: ds)) ('0' :: x :: ds)).toOption =
      some (digitsValue 16 ds) := by
  have hmarked : Text.markedDigits? 16 ds = some (digitsValue 16 ds) := by
    unfold Text.markedDigits?
    split
    · exact absurd rfl (ne_underscore_of_isAlphanum (h.isAlphanum _ List.mem_cons_self))
    · exact digits?_of_isDigitRow h
  obtain rfl | rfl := hx
  · have hread : Text.magnitude .marked ('0' :: 'x' :: ds) = .ok (digitsValue 16 ds) := by
      simp only [Text.magnitude, hmarked]
    exact congrArg Except.toOption hread
  · have hread : Text.magnitude .marked ('0' :: 'X' :: ds) = .ok (digitsValue 16 ds) := by
      simp only [Text.magnitude, hmarked]
    exact congrArg Except.toOption hread

/-! ## Numerals -/

lemma IsNumeral.isAlphanum (h : IsNumeral ds n) : ∀ c ∈ ds, c.isAlphanum = true := by
  cases h with
  | decimal hrow => exact hrow.isAlphanum
  | octal hrow => exact List.forall_mem_cons.mpr ⟨by decide, hrow.isAlphanum⟩
  | hexadecimal hrow hx =>
    refine List.forall_mem_cons.mpr ⟨by decide, List.forall_mem_cons.mpr ⟨?_, hrow.isAlphanum⟩⟩
    obtain rfl | rfl := hx <;> decide

lemma IsNumeral.ne_nil (h : IsNumeral ds n) : ds ≠ [] := by
  cases h with
  | decimal hrow => exact hrow.ne_nil
  | _ => exact List.cons_ne_nil _ _

/-- The reader of numbers reads a numeral as its value, but for a decimal one that is too long. -/
lemma number?_of_isNumeral (h : IsNumeral ds n) :
    number? ds = if isTooLong ds then none else some (n : ℤ) := by
  have hread := number?_of_isAlphanum [] h.ne_nil h.isAlphanum (by simp)
  rw [List.append_nil] at hread
  rw [hread]
  cases h with
  | @decimal ds hrow hlead =>
    by_cases hhead : ds.head? = some '0'
    · rw [hlead hhead]
      rfl
    · rw [radixOf_of_head hhead, magnitude_decimal hrow hhead]
      split_ifs <;> rfl
  | octal hrow =>
    rw [magnitude_octal hrow]
    rfl
  | hexadecimal hrow hx =>
    rw [magnitude_hexadecimal hrow hx]
    rfl

/-- Without a sign in front a text is a number if it is digits, but for a line break at its end. -/
lemma isNumber_eq (h : ∀ c ∈ t.head?, isSign c = false) :
    isNumber t = areDigits (if t.getLast? == some '\n' then t.dropLast else t) := by
  unfold isNumber
  split
  · exact absurd (h _ rfl) (by decide)
  · exact absurd (h _ rfl) (by decide)
  · rfl

/-- Decimal digits are digits of a number, whatever the first one is. -/
lemma areDigits_of_isDigit (hne : ds ≠ []) (h : ∀ c ∈ ds, c.isDigit = true) :
    areDigits ds = true := by
  unfold areDigits
  split
  · exact absurd (h 'x' (by simp)) (by decide)
  · exact absurd (h 'X' (by simp)) (by decide)
  · exact Text.someAll_iff.mpr ⟨hne, h⟩

lemma areDigits_hexadecimal {x : Char} (hx : x = 'x' ∨ x = 'X') :
    areDigits ('0' :: x :: ds) = true ↔ IsDigitRow 16 ds := by
  have hrow : Text.someAll (fun c => (Text.digitIn? 16 c).isSome) ds = true ↔ IsDigitRow 16 ds :=
    Text.someAll_iff.trans ⟨fun h => ⟨h.1, h.2⟩, fun h => ⟨h.ne_nil, h.digits⟩⟩
  obtain rfl | rfl := hx <;> exact hrow

/-- A numeral is a number. -/
lemma isNumber_of_isNumeral (h : IsNumeral ds n) : isNumber ds = true := by
  have hplain := fun c hc => (plain_of_isAlphanum (h.isAlphanum c hc)).2.2
  have hlast : (ds.getLast? == some '\n') = false := by
    rw [beq_eq_false_iff_ne]
    intro hlast
    exact absurd (h.isAlphanum _ (List.mem_of_getLast? hlast)) (by decide)
  rw [isNumber_eq fun c hc => hplain c (List.mem_of_mem_head? hc), hlast]
  simp only [Bool.false_eq_true, if_false]
  cases h with
  | decimal hrow =>
    exact areDigits_of_isDigit hrow.ne_nil fun c hc => isDigit_of_digitIn? le_rfl (hrow.digits c hc)
  | octal hrow =>
    refine areDigits_of_isDigit (List.cons_ne_nil _ _) (List.forall_mem_cons.mpr ⟨by decide, ?_⟩)
    exact fun c hc => isDigit_of_digitIn? (by decide) (hrow.digits c hc)
  | hexadecimal hrow hx => exact (areDigits_hexadecimal hx).mpr hrow

/-- Decimal digits that can be read are a numeral. -/
lemma exists_isNumeral_of_digits {back : List Char} (hds : Text.someAll Char.isDigit ds = true)
    (hback : back = [] ∨ back = ['\n']) {v : ℤ} (hv : number? (ds ++ back) = some v) :
    ∃ n, IsNumeral ds n := by
  obtain ⟨hne, hdigits⟩ := Text.someAll_iff.mp hds
  by_cases hlead : ds.head? = some '0' → ds = ['0']
  · exact ⟨_, .decimal ⟨hne, fun c hc => digitIn?_of_isDigit (hdigits c hc)⟩ hlead⟩
  · obtain ⟨hhead, hmore⟩ := Classical.not_imp.mp hlead
    obtain ⟨row, rfl⟩ : ∃ row, ds = '0' :: row := ⟨ds.tail, (List.cons_head?_tail hhead).symm⟩
    have hrow : row ≠ [] := fun hnil => hmore (by rw [hnil])
    have hrest := (List.forall_mem_cons.mp hdigits).2
    have halphanum : ∀ c ∈ '0' :: row, c.isAlphanum = true := fun c hc => by
      simp [Char.isAlphanum, hdigits c hc]
    have hblank : ∀ c ∈ back, Text.isNumberBlank c = true := by
      obtain rfl | rfl := hback <;> decide
    obtain ⟨hradix, hread⟩ := radixOf_octal back hrow hrest
    rw [number?_of_isAlphanum back hne halphanum hblank, hradix, hread,
      digits?_eq hne (by simp)] at hv
    obtain ⟨n, hn, -⟩ := Option.map_eq_some_iff.mp hv
    have hoctal := digits_of_groupedDigits halphanum hn
    exact ⟨_, .octal ⟨hrow, (List.forall_mem_cons.mp hoctal).2⟩⟩

/-- What is read as a number without a sign is a numeral, but for a line break at its end. -/
lemma exists_isNumeral (h : isNumber t = true) (hsign : ∀ c ∈ t, isSign c = false) {v : ℤ}
    (hv : number? t = some v) : ∃ ds n, IsNumeral ds n ∧ (t = ds ∨ t = ds ++ ['\n']) := by
  rw [isNumber_eq fun c hc => hsign c (List.mem_of_mem_head? hc)] at h
  obtain ⟨back, ht, hback⟩ := exists_back t
  generalize (if t.getLast? == some '\n' then t.dropLast else t) = ds at h ht
  subst ht
  obtain ⟨n, hn⟩ : ∃ n, IsNumeral ds n := by
    unfold areDigits at h
    split at h
    · exact ⟨_, .hexadecimal ((areDigits_hexadecimal (.inl rfl)).mp h) (.inl rfl)⟩
    · exact ⟨_, .hexadecimal ((areDigits_hexadecimal (.inr rfl)).mp h) (.inr rfl)⟩
    · exact exists_isNumeral_of_digits h hback hv
  refine ⟨ds, n, hn, ?_⟩
  obtain rfl | rfl := hback
  · exact .inl (List.append_nil ds)
  · exact .inr rfl

end AsmBridge.Source
