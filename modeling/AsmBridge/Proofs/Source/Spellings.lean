import AsmBridge.Proofs.Source.Hints
import AsmBridge.Proofs.Source.Terms

/-!
# The two spellings of a constant

A constant relative to the instruction pointer is written with its symbol and its displacement
behind the register in the brackets, or with both in front of the brackets. Both spellings are read
alike but for symbols that begin with `OFFSET` in letters of either case: in front of the brackets
these are taken for the word that asks for an absolute address (`readOperand_constant`).
-/

namespace AsmBridge.Source

/-- What a numeral is read as that stands for the value: nothing if it is too long. -/
def numeralValue (ds : List Char) (v : ℤ) : Except Fault ℤ :=
  if isTooLong ds then .error (.stop .numberUnreadable) else .ok v

/-- The text adds something to a symbol: nothing, or a number behind its sign, with a gap on either
side of the sign. A number below zero may also be added with its own sign. -/
inductive IsDisplacement (gap : List Char) : List Char → Except Fault ℤ → Prop
  | none : IsDisplacement gap [] (.ok 0)
  | number (negative : Bool) {ds : List Char} {n : ℕ} (h : IsNumeral ds n) :
    IsDisplacement gap (gap ++ (if negative then '-' else '+') :: (gap ++ ds))
      (numeralValue ds (if negative then -(n : ℤ) else n))
  | negated {ds : List Char} {n : ℕ} (h : IsNumeral ds n) :
    IsDisplacement gap (gap ++ '+' :: (gap ++ '-' :: ds)) (numeralValue ds (-(n : ℤ)))

variable {gap text s t : List Char} {r : Except Fault ℤ} {x : Summand}

/-! ## The terms -/

lemma filter_of_spells (h : Spells t x) : t.filter (· != ' ') = t := by
  rw [List.filter_eq_self]
  intro c hc
  rw [bne_iff_ne]
  rintro rfl
  exact absurd (plain_of_isTermChar (h.plain.2 _ hc)).1 (by decide)

lemma terms_of_spells (h : Spells t x) : terms t = [⟨false, t⟩] := by
  rw [terms, filter_of_spells h, termsFrom_of_spells h]

/-- Spaces in front of a text and behind it make no difference to its terms. -/
lemma terms_of_spaces (hgap : ∀ c ∈ gap, c = ' ') (s : List Char) :
    terms (gap ++ s) = terms s ∧ terms (s ++ gap) = terms s := by
  have hnil : gap.filter (· != ' ') = [] := by
    rw [List.filter_eq_nil_iff]
    intro c hc
    simp [hgap c hc]
  constructor
  · rw [terms, List.filter_append, hnil, List.nil_append, terms]
  · rw [terms, List.filter_append, hnil, List.append_nil, terms]

/-- A number behind its sign is one term. -/
lemma terms_number (hgap : ∀ c ∈ gap, c = ' ') (negative : Bool) (h : Spells t x) :
    terms ((if negative then '-' else '+') :: (gap ++ t)) = [⟨negative, t⟩] := by
  obtain ⟨hsign, hnegative⟩ := sign_of_negative negative
  have hfilter : (gap ++ t).filter (· != ' ') = t := by
    rw [List.filter_append, filter_of_spells h, List.filter_eq_nil_iff.mpr, List.nil_append]
    exact fun c hc => by simp [hgap c hc]
  have hread := termsFrom_sign hsign false [] [] t
  rw [List.nil_append, termsFrom_of_spells h, hnegative] at hread
  rw [terms, filter_sign hsign, hfilter, hread]
  rfl

/-- What is added begins with the gap and a sign, and is one term. -/
lemma IsDisplacement.cases_terms (hgap : ∀ c ∈ gap, c = ' ') (h : IsDisplacement gap text r) :
    (text = [] ∧ r = .ok 0) ∨ ∃ c rest negative ds n, text = gap ++ c :: rest ∧
      (c = '+' ∨ c = '-') ∧ IsNumeral ds n ∧ terms text = [⟨negative, ds⟩] ∧
      r = numeralValue ds (if negative then -(n : ℤ) else n) := by
  cases h with
  | none => exact .inl ⟨rfl, rfl⟩
  | @number negative ds n h =>
    refine .inr ⟨_, _, negative, ds, n, rfl, by cases negative <;> simp, h, ?_, rfl⟩
    rw [(terms_of_spaces hgap _).1, terms_number hgap negative (.number h)]
  | @negated ds n h =>
    refine .inr ⟨_, _, true, ds, n, rfl, .inl rfl, h, ?_, rfl⟩
    have hnumber : terms ('-' :: ds) = [⟨true, ds⟩] :=
      @terms_number [] ds _ (by simp) true (.number h)
    have hnone : terms gap = [] := by
      rw [← List.append_nil gap, (terms_of_spaces hgap []).1]
      rfl
    rw [(terms_of_spaces hgap _).1, terms_plus, terms_append rfl, hnone, hnumber, List.nil_append]

/-- A term is read, and then what is added to it. -/
lemma terms_displacement (hgap : ∀ c ∈ gap, c = ' ') (htext : IsDisplacement gap text r)
    (h : Spells t x) : terms (t ++ text) = ⟨false, t⟩ :: terms text := by
  rcases htext.cases_terms hgap with ⟨rfl, -⟩ | ⟨c, rest, -, -, -, rfl, hc, -⟩
  · rw [List.append_nil, terms_of_spells h]
    rfl
  · have hsign : isSign c = true := by
      obtain rfl | rfl := hc <;> rfl
    rw [← List.append_assoc, terms_append hsign, (terms_of_spaces hgap t).2, terms_of_spells h,
      (terms_of_spaces hgap _).1]
    rfl

lemma add_number {ds : List Char} {n : ℕ} (h : IsNumeral ds n) (line : Option ℕ) (op : String)
    (sum : Sum) (negative : Bool) : sum.add line op ⟨negative, ds⟩ =
      (numeralValue ds (if negative then -(n : ℤ) else n)).map
        fun k => { sum with disp := sum.disp + k } := by
  unfold Sum.add
  simp only [Text.cutAt_of_notMem (notMem_of_isAlphanum h.isAlphanum), register?_of_isNumeral h,
    isNumber_of_isNumeral h, if_true, number, number?_of_isNumeral h, numeralValue]
  cases isTooLong ds <;> rfl

lemma add_register {r : Register} (h : register? t = some r) (line : Option ℕ) (op : String)
    (sum : Sum) : sum.add line op ⟨false, t⟩ =
      if sum.base.isNone then .ok { sum with base := some r }
      else if sum.index.isNone then .ok { sum with index := some r, scale := some 1 }
      else .error (defectAt line op (.tooManyRegisters op)) := by
  unfold Sum.add
  simp only [Text.cutAt_of_notMem (notMem_of_isAlphanum (isAlphanum_of_register? h).2), h]
  rfl

lemma add_symbol {name : String} (hname : IsSymbol name) (hregister : register? name.toList = none)
    (line : Option ℕ) (op : String) {sum : Sum} (hsum : sum.symbol = none) :
    sum.add line op ⟨false, name.toList⟩ = .ok { sum with symbol := some name } := by
  obtain ⟨hsymbol, hnumber, hstar⟩ := isSymbol_of_isSymbol hname
  unfold Sum.add
  simp only [Text.cutAt_of_notMem hstar, hregister, hnumber, hsymbol, hsum, String.ofList_toList]
  rfl

/-- What is added to a symbol is added to the displacement. -/
lemma foldlM_displacement (hgap : ∀ c ∈ gap, c = ' ') (htext : IsDisplacement gap text r)
    (line : Option ℕ) (op : String) (sum : Sum) :
    (terms text).foldlM (Sum.add line op) sum =
      r.map fun k => { sum with disp := sum.disp + k } := by
  rcases htext.cases_terms hgap with ⟨rfl, rfl⟩ | ⟨c, rest, negative, ds, n, -, -, h, hterms, rfl⟩
  · change Except.ok sum = Except.ok { sum with disp := sum.disp + 0 }
    rw [add_zero]
  · rw [hterms, List.foldlM_cons, add_number h]
    cases (numeralValue _ _).map _ <;> rfl

/-! ## The address -/

/-- The constant of a symbol is read, wherever its terms stand. -/
lemma readAddress_of_terms {op sum : List Char} {name : String} (hsum : addressTerms? op = some sum)
    (hgap : ∀ c ∈ gap, c = ' ') (htext : IsDisplacement gap text r)
    (hterms : terms sum = ⟨false, "rip".toList⟩ :: ⟨false, name.toList⟩ :: terms text)
    (hname : IsSymbol name) (hregister : register? name.toList = none) (line bits : Option ℕ) :
    readAddress line bits op =
      r.map fun k => ⟨some .rip, none, none, k, bits, some name⟩ := by
  have hrip : Sum.add line (String.ofList op) {} ⟨false, "rip".toList⟩ =
      .ok { base := some .rip } := add_register (by decide) line _ _
  have hsymbol : Sum.add line (String.ofList op) { base := some .rip } ⟨false, name.toList⟩ =
      .ok { base := some .rip, symbol := some name } := add_symbol hname hregister line _ rfl
  have hfold : (terms sum).foldlM (Sum.add line (String.ofList op)) {} =
      r.map fun k => { base := some .rip, disp := 0 + k, symbol := some name } := by
    rw [hterms, List.foldlM_cons, hrip]
    change (⟨false, name.toList⟩ :: terms text).foldlM (Sum.add line (String.ofList op))
      { base := some .rip } = _
    rw [List.foldlM_cons, hsymbol]
    exact foldlM_displacement hgap htext line _ _
  unfold readAddress
  simp only [hsum, hfold]
  cases r with
  | error e => rfl
  | ok k =>
    simp only [Except.map, zero_add]
    rfl

/-! ## The operands -/

/-- A character of a term or a sign. -/
def isSumChar (c : Char) : Bool := isTermChar c || isSign c

lemma IsDisplacement.chars (h : IsDisplacement gap text r) :
    ∀ c ∈ text, c ∈ gap ∨ isSumChar c = true := by
  have hds : ∀ {ds n}, IsNumeral ds n → ∀ c ∈ ds, isSumChar c = true := fun h c hc => by
    simp [isSumChar, (Spells.number h).plain.2 c hc]
  cases h with
  | none => simp
  | number negative h =>
    have hsign : isSumChar (if negative then '-' else '+') = true := by
      simp [isSumChar, sign_of_negative negative]
    intro c hc
    simp only [List.mem_append, List.mem_cons] at hc
    obtain hc | rfl | hc | hc := hc
    · exact .inl hc
    · exact .inr hsign
    · exact .inl hc
    · exact .inr (hds h c hc)
  | negated h =>
    intro c hc
    simp only [List.mem_append, List.mem_cons] at hc
    obtain hc | rfl | hc | rfl | hc := hc
    · exact .inl hc
    · exact .inr rfl
    · exact .inl hc
    · exact .inr rfl
    · exact .inr (hds h c hc)

lemma plain_of_isSumChar {c : Char} (h : isSumChar c = true) :
    Text.isBlank c = false ∧ c ≠ ':' ∧ c ≠ '[' := by
  have hbesides : ∀ d ∈ [':', '['], isSumChar d = false := by decide
  have hne : ∀ d ∈ [':', '['], c ≠ d := by
    rintro d hd rfl
    exact absurd h (by simp [hbesides c hd])
  refine ⟨?_, hne ':' (by decide), hne '[' (by decide)⟩
  simp only [isSumChar, isSign, Bool.or_eq_true, beq_iff_eq] at h
  obtain h | rfl | rfl := h
  · exact (plain_of_isTermChar h).1
  all_goals decide

lemma isPrefixOf_append {p a b : List Char} (hb : ∀ c ∈ b.head?, c ∉ p) :
    p.isPrefixOf (a ++ b) = p.isPrefixOf a := by
  induction a generalizing p with
  | nil =>
    cases p with
    | nil => rfl
    | cons d p =>
      cases b with
      | nil => rfl
      | cons c b =>
        have hne : d ≠ c := fun heq => hb c rfl (heq ▸ List.mem_cons_self)
        simp [List.isPrefixOf, hne]
  | cons e a ih =>
    cases p with
    | nil => rfl
    | cons d p =>
      rw [List.cons_append, List.isPrefixOf_cons_cons, List.isPrefixOf_cons_cons,
        ih fun c hc hmem => hb c hc (List.mem_cons_of_mem _ hmem)]

/-- Whether a text begins like the word for an absolute address depends on what stands in front of
a sign or bracket. -/
lemma isOffset_append {c : Char} (hc : c = '+' ∨ c = '-' ∨ c = '[') (s t : List Char) :
    isOffset (s ++ c :: t) = isOffset s := by
  rw [isOffset, isOffset, List.flatMap_append]
  refine isPrefixOf_append ?_
  obtain rfl | rfl | rfl := hc
  all_goals
    rintro d ⟨⟩
    decide

section Constant

variable {line bits : Option ℕ} {front : List Char} {name : String}

/-- The spelling with all terms in the brackets. -/
lemma readOperand_inner (hfront : IsFront bits front) (hname : IsSymbol name)
    (hregister : register? name.toList = none) (hgap : ∀ c ∈ gap, c = ' ')
    (htext : IsDisplacement gap text r) :
    readOperand line (front ++ '[' :: ("rip + ".toList ++ name.toList ++ text ++ [']'])) =
      r.map fun k => .mem ⟨some .rip, none, none, k, bits, some name⟩ := by
  have hchars : ∀ c ∈ name.toList, isSumChar c = true := fun c hc => by
    simp [isSumChar, (Spells.symbol hname hregister).plain.2 c hc]
  have hline : '\n' ∉ "rip + ".toList ++ name.toList ++ text := by
    rw [List.mem_append, List.mem_append, not_or, not_or]
    refine ⟨⟨by decide, fun hmem => ?_⟩, fun hmem => ?_⟩
    · exact absurd (plain_of_isSumChar (hchars _ hmem)).1 (by decide)
    · rcases htext.chars _ hmem with hmem | hmem
      · exact absurd (hgap _ hmem) (by decide)
      · exact absurd (plain_of_isSumChar hmem).1 (by decide)
  have hterms : terms ("rip + ".toList ++ name.toList ++ text) =
      ⟨false, "rip".toList⟩ :: ⟨false, name.toList⟩ :: terms text := by
    have hrip : Spells "rip".toList (.register .rip) := .register (by decide)
    have hspace : ∀ c ∈ [' '], c = ' ' := by decide
    have hfirst := terms_append (c := '+') rfl ("rip".toList ++ [' '])
      ([' '] ++ (name.toList ++ text))
    rw [(terms_of_spaces hspace _).2, terms_of_spells hrip, terms_plus,
      (terms_of_spaces hspace _).1,
      terms_displacement hgap htext (.symbol hname hregister)] at hfirst
    rw [List.append_assoc]
    exact hfirst
  have hsum : addressTerms? ('[' :: ("rip + ".toList ++ name.toList ++ text ++ [']'])) =
      some ("rip + ".toList ++ name.toList ++ text) := congrArg some List.dropLast_concat
  rw [readOperand_front hfront (isPlainOperand_of_bracket hline), readBracketed,
    readAddress_of_terms hsum hgap htext hterms hname hregister]
  cases r <;> rfl

/-- The spelling with symbol and number in front of the brackets. -/
lemma readOperand_outer (hfront : IsFront bits front) (hname : IsSymbol name)
    (hregister : register? name.toList = none) (htext : IsDisplacement [] text r) :
    readOperand line (front ++ (name.toList ++ text ++ "[rip]".toList)) =
      if isOffset name.toList then
        .error (defectAt line (String.ofList (name.toList ++ text ++ "[rip]".toList))
          (.absoluteAddress (String.ofList (name.toList ++ text ++ "[rip]".toList))))
      else r.map fun k => .mem ⟨some .rip, none, none, k, bits, some name⟩ := by
  have hchars : ∀ c ∈ name.toList ++ text, isSumChar c = true := by
    intro c hc
    rcases List.mem_append.mp hc with hc | hc
    · simp [isSumChar, (Spells.symbol hname hregister).plain.2 c hc]
    · exact (htext.chars c hc).resolve_left List.not_mem_nil
  have hplain : ∀ c ∈ name.toList ++ text ++ "[rip]".toList, Text.isBlank c = false ∧ c ≠ ':' := by
    have hrip : ∀ c ∈ "[rip]".toList, Text.isBlank c = false ∧ c ≠ ':' := by decide
    intro c hc
    rcases List.mem_append.mp hc with hc | hc
    · exact ⟨(plain_of_isSumChar (hchars c hc)).1, (plain_of_isSumChar (hchars c hc)).2.1⟩
    · exact hrip c hc
  have hlast : (name.toList ++ text ++ "[rip]".toList).getLast? = some ']' :=
    List.getLast?_append_of_ne_nil _ (by decide)
  have hoperand := isPlainOperand_of_forall (fun c hc => (hplain c hc).1) hlast
  have hoffset : isOffset (name.toList ++ text ++ "[rip]".toList) = isOffset name.toList := by
    rcases htext.cases_terms (by simp) with ⟨rfl, -⟩ | ⟨c, rest, -, -, -, rfl, hc, -⟩
    · rw [List.append_nil]
      exact isOffset_append (.inr (.inr rfl)) _ _
    · rw [List.append_assoc, List.nil_append, List.cons_append]
      exact isOffset_append (hc.imp_right .inl) _ _
  have hsegmented : isSegmented (name.toList ++ text ++ "[rip]".toList) = false := by
    unfold isSegmented
    split
    · rename_i heq
      exact absurd rfl (hplain ':' (heq ▸ by simp)).2
    · rfl
  obtain ⟨sum, hsum⟩ : ∃ sum, addressTerms? (name.toList ++ text ++ "[rip]".toList) = some sum := by
    obtain ⟨c, rest, hcons⟩ := List.exists_cons_of_ne_nil (Spells.symbol hname hregister).plain.1
    rw [hcons, List.cons_append] at hchars ⊢
    refine ⟨_, addressTerms?_outer (fun hmem => ?_) "rip".toList⟩
    exact (plain_of_isSumChar (hchars _ hmem)).2.2 rfl
  have hterms : terms sum = ⟨false, "rip".toList⟩ :: ⟨false, name.toList⟩ :: terms text := by
    have hrip : Spells "rip".toList (.register .rip) := .register (by decide)
    have hopen : '[' ∉ name.toList ++ text := fun hmem =>
      (plain_of_isSumChar (hchars _ hmem)).2.2 rfl
    rw [@terms_of_addressTerms? _ "rip".toList sum hopen hsum, terms_of_spells hrip,
      terms_displacement (by simp) htext (.symbol hname hregister), List.singleton_append]
  rw [readOperand_front hfront hoperand, readBracketed, hoffset, hsegmented,
    readAddress_of_terms hsum (by simp) htext hterms hname hregister]
  simp only [Bool.false_eq_true, if_false]
  split_ifs
  · rfl
  · cases r <;> rfl

/-- Of a symbol that is no register the spelling with all terms in the brackets is read as the
constant, under every hint, and so is the spelling in front of the brackets unless the symbol begins
like the word for an absolute address; then it is refused. -/
theorem readOperand_constant (hfront : IsFront bits front) (hname : IsSymbol name)
    (hregister : register? name.toList = none) :
    (∀ text r, IsDisplacement [' '] text r →
      readOperand line (front ++ '[' :: ("rip + ".toList ++ name.toList ++ text ++ [']'])) =
        r.map fun k => .mem ⟨some .rip, none, none, k, bits, some name⟩) ∧
    ∀ text r, IsDisplacement [] text r →
      readOperand line (front ++ (name.toList ++ text ++ "[rip]".toList)) =
        if isOffset name.toList then
          .error (defectAt line (String.ofList (name.toList ++ text ++ "[rip]".toList))
            (.absoluteAddress (String.ofList (name.toList ++ text ++ "[rip]".toList))))
        else r.map fun k => .mem ⟨some .rip, none, none, k, bits, some name⟩ :=
  ⟨fun _ _ htext => readOperand_inner hfront hname hregister (by decide) htext,
    fun _ _ htext => readOperand_outer hfront hname hregister htext⟩

end Constant

/-- A number is added to a constant of eight bytes, in both spellings. -/
theorem readOperand_constant_of_hint :
    readOperand none "QWORD PTR [rip + .LC3 - 8]".toList =
        .ok (.mem ⟨some .rip, none, none, -8, some 64, some ".LC3"⟩) ∧
      readOperand none "QWORD PTR .LC3-8[rip]".toList =
        .ok (.mem ⟨some .rip, none, none, -8, some 64, some ".LC3"⟩) := by
  have hblank : ∀ c ∈ [' '], Text.isBlank c = true := by decide
  have hwidth : IsWordGap "qword" "QWORD ".toList :=
    ⟨"QWORD".toList, [' '], rfl, by decide, by decide, hblank⟩
  have hptr : IsWordGap "ptr" "PTR ".toList :=
    ⟨"PTR".toList, [' '], rfl, by decide, by decide, hblank⟩
  have hfront : IsFront (some 64) "QWORD PTR ".toList := IsHint.ptr (by decide) hwidth hptr
  have hname : IsSymbol ".LC3" := ⟨'.', "LC3".toList, rfl, by decide, by decide⟩
  have hregister : register? ".LC3".toList = none := by decide +kernel
  have height : IsNumeral ['8'] 8 := .decimal ⟨by decide, by decide⟩ (by decide)
  obtain ⟨hinner, houter⟩ := @readOperand_constant none _ _ _ hfront hname hregister
  have hoffset : isOffset ".LC3".toList = false := by decide +kernel
  have hinside := hinner _ _ (.number true height)
  have hbefore := houter _ _ (.number true height)
  rw [hoffset] at hbefore
  exact ⟨hinside, hbefore⟩

/-- A symbol that begins with `offset` is read in the brackets and refused in front of them. -/
theorem not_constant_alike :
    IsSymbol "offset_table" ∧ register? "offset_table".toList = none ∧
      readOperand none "[rip + offset_table]".toList =
        .ok (.mem ⟨some .rip, none, none, 0, none, some "offset_table"⟩) ∧
      readOperand none "offset_table[rip]".toList =
        .error (defectAt none "offset_table[rip]" (.absoluteAddress "offset_table[rip]")) :=
  ⟨⟨'o', "ffset_table".toList, rfl, by decide, by decide⟩, by decide +kernel, by decide +kernel,
    by decide +kernel⟩

end AsmBridge.Source
