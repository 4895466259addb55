import AsmBridge.Proofs.Source.Numerals
import AsmBridge.Proofs.Source.Texts

/-!
# The terms of a memory operand

A term is a register, a product of a register and a number, a number or a symbol. The text of a
memory operand is divided at its signs, wherever they stand (`terms_append`), and the terms in the
brackets are read before those in front of them (`terms_of_addressTerms?`).
-/

namespace AsmBridge.Source

/-- What a term stands for, its sign apart. -/
inductive Summand
  | register (r : Register)
  | scaled (factor : ℕ) (r : Register)
  | number (value : ℕ)
  | symbol (name : String)
deriving DecidableEq, Repr

/-- The text of a term without its sign: a register, a product of one and a number in either order,
a number, or a symbol that is no register. -/
inductive Spells : List Char → Summand → Prop
  | register {t : List Char} {r : Register} (h : register? t = some r) : Spells t (.register r)
  | scaledLeft {t ds : List Char} {r : Register} {n : ℕ} (hn : IsNumeral ds n)
    (h : register? t = some r) : Spells (ds ++ '*' :: t) (.scaled n r)
  | scaledRight {t ds : List Char} {r : Register} {n : ℕ} (h : register? t = some r)
    (hn : IsNumeral ds n) : Spells (t ++ '*' :: ds) (.scaled n r)
  | number {ds : List Char} {n : ℕ} (hn : IsNumeral ds n) : Spells ds (.number n)
  | symbol {name : String} (hname : IsSymbol name) (h : register? name.toList = none) :
    Spells name.toList (.symbol name)

/-! ## The characters of a term -/

/-- A character that may stand in a term. -/
def isTermChar (c : Char) : Bool := Text.isSymbolRest c || c == '*'

variable {c : Char} {s t ds : List Char} {n : ℕ} {x : Summand}

lemma isSymbolRest_of_isAlphanum (h : c.isAlphanum = true) : Text.isSymbolRest c = true := by
  simp [Text.isSymbolRest, Text.isWord, h]

lemma isSymbolRest_of_start (h : Text.isSymbolStart c = true) : Text.isSymbolRest c = true := by
  simp only [Text.isSymbolStart, Bool.or_eq_true] at h
  obtain ((h | h) | h) | h := h
  · exact isSymbolRest_of_isAlphanum (by simp [Char.isAlphanum, h])
  all_goals simp [Text.isSymbolRest, Text.isWord, h]

/-- A term has no blanks, signs or brackets in it. -/
lemma plain_of_isTermChar (h : isTermChar c = true) :
    Text.isBlank c = false ∧ isSign c = false ∧ c ≠ '[' ∧ c ≠ ']' := by
  have hbesides : ∀ d ∈ ['+', '-', '[', ']'], isTermChar d = false := by decide
  have hne : ∀ d ∈ ['+', '-', '[', ']'], c ≠ d := by
    rintro d hd rfl
    exact absurd h (by simp [hbesides c hd])
  have hblank : Text.isBlank c = false := by
    simp only [isTermChar, Text.isSymbolRest, Bool.or_eq_true] at h
    obtain (((h | h) | h) | h) | h := h
    · exact Text.isBlank_eq_false_of_isWord h
    all_goals
      rw [beq_iff_eq] at h
      subst h
      decide
  refine ⟨hblank, ?_, hne '[' (by decide), hne ']' (by decide)⟩
  simp [isSign, hne '+' (by decide), hne '-' (by decide)]

/-- The name of a register is letters and digits. -/
lemma isAlphanum_of_register? {r : Register} (h : register? t = some r) :
    t ≠ [] ∧ ∀ c ∈ t, c.isAlphanum = true := by
  obtain ⟨p, hp, hname⟩ := exists_name_of_register? h
  obtain ⟨hne, -, hchars⟩ := isAlphanum_of_mem_names p hp
  rw [hname] at hne hchars
  refine ⟨fun hnil => hne (by rw [hnil]; rfl), fun c hc => ?_⟩
  obtain ⟨hletter, hk⟩ := hchars _ (List.mem_map_of_mem hc)
  unfold Text.lowerChar at hletter hk
  split at hletter
  · rename_i hkelvin
    exact absurd (if_pos hkelvin) hk
  · exact isAlphanum_of_toLower hletter

lemma Spells.plain (h : Spells t x) : t ≠ [] ∧ ∀ c ∈ t, isTermChar c = true := by
  have hletter : ∀ {s : List Char}, (∀ c ∈ s, c.isAlphanum = true) → ∀ c ∈ s, isTermChar c = true :=
    fun h c hc => by simp [isTermChar, isSymbolRest_of_isAlphanum (h c hc)]
  have hproduct : ∀ {a b : List Char}, (∀ c ∈ a, c.isAlphanum = true) →
      (∀ c ∈ b, c.isAlphanum = true) → ∀ c ∈ a ++ '*' :: b, isTermChar c = true := by
    intro a b ha hb c hc
    rcases List.mem_append.mp hc with hc | hc
    · exact hletter ha c hc
    · rcases List.mem_cons.mp hc with rfl | hc
      · rfl
      · exact hletter hb c hc
  cases h with
  | register h => exact ⟨(isAlphanum_of_register? h).1, hletter (isAlphanum_of_register? h).2⟩
  | scaledLeft hn h => exact ⟨by simp, hproduct hn.isAlphanum (isAlphanum_of_register? h).2⟩
  | scaledRight h hn => exact ⟨by simp, hproduct (isAlphanum_of_register? h).2 hn.isAlphanum⟩
  | number hn => exact ⟨hn.ne_nil, hletter hn.isAlphanum⟩
  | symbol hname =>
    obtain ⟨c, rest, hlist, hstart, hrest⟩ := hname
    rw [hlist]
    refine ⟨List.cons_ne_nil _ _, List.forall_mem_cons.mpr ⟨?_, fun d hd => ?_⟩⟩
    · simp [isTermChar, isSymbolRest_of_start hstart]
    · simp [isTermChar, hrest d hd]

/-! ## Reading a term -/

lemma isDigit_of_isNumeral (h : IsNumeral ds n) : ∀ c ∈ ds.head?, c.isDigit = true := by
  cases h with
  | decimal hrow =>
    exact fun c hc => isDigit_of_digitIn? le_rfl (hrow.digits c (List.mem_of_mem_head? hc))
  | _ =>
    rintro c ⟨⟩
    rfl

/-- No register has a name that begins with a digit. -/
lemma register?_of_isNumeral (h : IsNumeral ds n) : register? ds = none := by
  obtain ⟨c, rest, rfl⟩ := List.exists_cons_of_ne_nil h.ne_nil
  have hdigit := isDigit_of_isNumeral h c rfl
  have hself : Text.lowerChar c = c := by
    have hcode := toNat_of_isDigit hdigit
    have hkelvin : c ≠ '\u212a' := by
      rintro rfl
      exact absurd hcode (by decide)
    have hlower : c.toLower = c := dif_neg fun ⟨hge, _⟩ => by
      have hle : 65 ≤ c.toNat := hge
      omega
    rw [Text.lowerChar, if_neg (by simpa using hkelvin), hlower]
  refine Option.eq_none_iff_forall_not_mem.mpr fun r hr => ?_
  obtain ⟨p, hp, hname⟩ := exists_name_of_register? hr
  have hhead : c ∈ (Text.chars p.1).head? := by
    rw [hname, List.map_cons, hself]
    rfl
  rw [(isAlphanum_of_mem_names p hp).2.1 c hhead] at hdigit
  cases hdigit

lemma isDigit_of_isSymbolStart (h : Text.isSymbolStart c = true) : c.isDigit = false := by
  by_contra hdigit
  have hcode := toNat_of_isDigit (by simpa using hdigit)
  simp only [Text.isSymbolStart, isAlpha_eq, Bool.or_eq_true, beq_iff_eq] at h
  obtain (((h | h) | rfl) | rfl) | rfl := h
  · have hupper := toNat_of_isUpper h
    omega
  · have hlower := toNat_of_isLower h
    omega
  all_goals exact absurd hcode (by decide)

/-- A symbol is one, and no number. -/
lemma isSymbol_of_isSymbol {name : String} (h : IsSymbol name) :
    isSymbol name.toList = true ∧ isNumber name.toList = false ∧ '*' ∉ name.toList := by
  obtain ⟨c, rest, hlist, hstart, hrest⟩ := h
  rw [hlist]
  have hall : ∀ d ∈ c :: rest, Text.isSymbolRest d = true :=
    List.forall_mem_cons.mpr ⟨isSymbolRest_of_start hstart, hrest⟩
  have hnone : ∀ d ∈ ['*', '\n', '+', '-'], Text.isSymbolRest d = false := by decide
  have hnotMem : ∀ d ∈ ['*', '\n', '+', '-'], d ∉ c :: rest := by
    intro d hd hmem
    exact absurd (hall d hmem) (by simp [hnone d hd])
  have hlast : ((c :: rest).getLast? == some '\n') = false := by
    rw [beq_eq_false_iff_ne]
    intro hlast
    exact hnotMem '\n' (by decide) (List.mem_of_getLast? hlast)
  refine ⟨?_, ?_, hnotMem '*' (by decide)⟩
  · rw [isSymbol, hlast]
    simpa [hstart] using hrest
  · have hsign : isSign c = false := by
      have hplus : c ≠ '+' := fun heq => hnotMem '+' (by decide) (heq ▸ List.mem_cons_self)
      have hminus : c ≠ '-' := fun heq => hnotMem '-' (by decide) (heq ▸ List.mem_cons_self)
      simp [isSign, hplus, hminus]
    have hdigit := isDigit_of_isSymbolStart hstart
    rw [isNumber_eq (by simpa using hsign), hlast, if_neg Bool.false_ne_true]
    unfold areDigits
    split
    · rename_i heq
      obtain ⟨rfl, -⟩ := List.cons.inj heq
      exact absurd hdigit (by decide)
    · rename_i heq
      obtain ⟨rfl, -⟩ := List.cons.inj heq
      exact absurd hdigit (by decide)
    · simp [Text.someAll, hdigit]

lemma notMem_of_isAlphanum (h : ∀ c ∈ s, c.isAlphanum = true) : '*' ∉ s := fun hmem =>
  absurd (h _ hmem) (by decide)

lemma number_of_isNumeral (h : IsNumeral ds n) {v : ℤ} (hv : number ds = .ok v) : v = n := by
  rw [number, number?_of_isNumeral h] at hv
  split_ifs at hv
  exact (Except.ok.inj hv).symm

/-! ## The terms of a text -/

/-- Without signs a text goes to the run that is being read. -/
lemma termsFrom_append (ht : ∀ c ∈ t, isSign c = false) (negative : Bool) (run s : List Char) :
    termsFrom negative run (t ++ s) = termsFrom negative (t.reverse ++ run) s := by
  induction t generalizing run with
  | nil => rfl
  | cons c t ih =>
    obtain ⟨hc, ht⟩ := List.forall_mem_cons.mp ht
    rw [List.cons_append, termsFrom, hc, if_neg Bool.false_ne_true, ih ht, List.reverse_cons,
      List.append_assoc, List.singleton_append]

/-- What stands in front of a sign and what stands behind it are read apart. -/
lemma termsFrom_sign (hc : isSign c = true) (negative : Bool) (run t s : List Char) :
    termsFrom negative run (t ++ c :: s) =
      termsFrom negative run t ++ termsFrom (c == '-') [] s := by
  induction t generalizing negative run with
  | nil => simp only [List.nil_append, termsFrom, hc, if_true]
  | cons d t ih =>
    simp only [List.cons_append, termsFrom]
    cases isSign d with
    | true => simp only [if_true, ih, List.append_assoc]
    | false => simp only [Bool.false_eq_true, if_false, ih]

lemma filter_sign (hc : isSign c = true) (s : List Char) :
    (c :: s).filter (· != ' ') = c :: s.filter (· != ' ') := by
  refine List.filter_cons_of_pos (bne_iff_ne.mpr ?_)
  rintro rfl
  exact absurd hc (by decide)

/-- The two signs. -/
lemma sign_of_negative (negative : Bool) : isSign (if negative then '-' else '+') = true ∧
    ((if negative then '-' else '+') == '-') = negative := by
  cases negative <;> exact ⟨rfl, rfl⟩

/-- A sign divides the terms of a text. -/
lemma terms_append (hc : isSign c = true) (t s : List Char) :
    terms (t ++ c :: s) = terms t ++ terms (c :: s) := by
  have hbehind := termsFrom_sign hc false [] [] (s.filter (· != ' '))
  rw [List.nil_append, termsFrom, List.isEmpty_nil, if_pos rfl, List.nil_append] at hbehind
  rw [terms, List.filter_append, filter_sign hc, termsFrom_sign hc, terms, terms, filter_sign hc,
    hbehind]

lemma terms_plus (s : List Char) : terms ('+' :: s) = terms s := rfl

lemma termText_eq_self (h : ∀ c ∈ s.head?, Text.isBlank c = false) (hne : s ≠ []) :
    termText s = s := by
  rw [termText, Text.trimLeft_eq_self h]
  split
  · exact absurd rfl hne
  · rfl

/-- A term that is read up to the end of the text or up to a sign. -/
lemma termsFrom_of_spells (ht : Spells t x) (negative : Bool) :
    termsFrom negative [] t = [⟨negative, t⟩] := by
  obtain ⟨hne, hplain⟩ := ht.plain
  have hsign := fun c hc => (plain_of_isTermChar (hplain c hc)).2.1
  have hblank : ∀ c ∈ t.head?, Text.isBlank c = false := fun c hc =>
    (plain_of_isTermChar (hplain c (List.mem_of_mem_head? hc))).1
  have happend := termsFrom_append hsign negative [] []
  rw [List.append_nil] at happend
  rw [happend, termsFrom]
  simp [hne, termText_eq_self hblank hne]

/-- The sum of a memory operand with something in front of the brackets. -/
lemma addressTerms?_outer {outer : List Char} (houter : '[' ∉ c :: outer) (inner : List Char) :
    addressTerms? (c :: outer ++ '[' :: (inner ++ [']'])) =
      if inner.contains '\n' then none
      else some (inner ++ if isSign c then c :: outer else '+' :: c :: outer) := by
  have hdrop : (inner ++ [']']).dropLast = inner := List.dropLast_concat
  have hcut := Text.cutAt_append (t := inner ++ [']']) houter
  unfold addressTerms?
  split
  · rename_i heq
    exact absurd (List.cons.inj heq).1 fun hc => houter (hc ▸ List.mem_cons_self)
  · rw [hcut]
    simp only [hdrop]

/-- The terms of a memory operand are those in the brackets and then those in front of them. -/
lemma terms_of_addressTerms? {outer inner sum : List Char} (houter : '[' ∉ outer)
    (h : addressTerms? (outer ++ '[' :: (inner ++ [']'])) = some sum) :
    terms sum = terms inner ++ terms outer := by
  cases outer with
  | nil =>
    have hdrop : (inner ++ [']']).dropLast = inner := List.dropLast_concat
    obtain rfl : inner = sum := hdrop ▸ Option.some.inj h
    exact (List.append_nil _).symm
  | cons c outer =>
    rw [addressTerms?_outer houter] at h
    split_ifs at h with _ hsign
    · rw [← Option.some.inj h, terms_append hsign]
    · rw [← Option.some.inj h, terms_append rfl, terms_plus]

end AsmBridge.Source
