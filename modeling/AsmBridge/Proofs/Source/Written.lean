import AsmBridge.Proofs.Source.Shapes
import AsmBridge.Proofs.Source.Words

/-!
# Written operands

An operand that can be read is read from its own text again (`readOperand_text_iff`), with two
exceptions among those without a base. An index with the scale one stands alone, as a base does, and
a lone displacement below zero is written with its sign between the mark of the base and the digits.
-/

namespace AsmBridge

/-- The text of the address stands for another address, or for none. -/
inductive Address.IsMisprinted (a : Address) : Prop
  /-- The index without its factor stands where a base stands. -/
  | unscaled (hbase : a.base = none) (hscale : a.scale = some .one)
  /-- The sign of the displacement stands behind the mark of hexadecimal digits. -/
  | negative (hbase : a.base = none) (hindex : a.index = none) (hdisp : a.disp < 0)

/-- The operand is an address of that kind. -/
def Operand.IsMisprinted (o : Operand) : Prop := ∃ a, o = .mem a ∧ a.IsMisprinted

/-- What stands in front of an index: its factor, unless that is one. -/
def Scale.factorText (d : Scale) : List Char :=
  if d = .one then [] else Nat.toDigits 10 d.factor ++ ['*']

/-- The texts of the terms of the address. -/
def Address.parts (a : Address) : List (List Char) :=
  (a.base.map (·.name.toList)).toList ++
    (a.index.map fun r => (a.scale.getD .one).factorText ++ r.name.toList).toList ++
    (a.symbol.map String.toList).toList

lemma Address.toList_terms (a : Address) : a.terms.map String.toList = a.parts := by
  have hone : Scale.factorText .one = [] := rfl
  have htwo : Scale.factorText .two = ['2', '*'] := rfl
  have hfour : Scale.factorText .four = ['4', '*'] := rfl
  have height : Scale.factorText .eight = ['8', '*'] := rfl
  obtain ⟨base, index, scale, disp, bits, symbol⟩ := a
  rw [Address.terms, Address.parts, List.map_append, List.map_append]
  cases index with
  | none => cases base <;> cases symbol <;> rfl
  | some r =>
    rcases scale with _ | _ | _ | _ | _ <;> cases base <;> cases symbol <;>
      simp [hone, htwo, hfour, height]

/-- The sum of the address as it stands between the brackets. -/
def Address.inner (a : Address) : List Char :=
  [' ', '+', ' '].intercalate a.parts ++ a.dispText.toList

lemma Address.toList_sumText (a : Address) : a.sumText.toList = '[' :: (a.inner ++ [']']) := by
  rw [Address.sumText, String.toList_append, String.toList_append, String.toList_append,
    String.toList_intercalate, a.toList_terms, Address.inner]
  rfl

namespace Source

variable {line : Option ℕ} {op : String} {t : List Char}

/-! ## The terms of an address -/

/-- The terms of a sum are read one by one, and then what is added to the last one. -/
lemma terms_row {back : List Char} {r : Except Fault ℤ} (hback : IsDisplacement [' '] back r)
    {ts : List (List Char)} (h : ∀ u ∈ t :: ts, ∃ x, Spells u x) :
    terms ([' ', '+', ' '].intercalate (t :: ts) ++ back) =
      (t :: ts).map (⟨false, ·⟩) ++ terms back := by
  have hspace : ∀ c ∈ [' '], c = ' ' := by decide
  induction ts generalizing t with
  | nil =>
    obtain ⟨x, hx⟩ := h t List.mem_cons_self
    rw [List.intercalate_singleton]
    exact terms_displacement hspace hback hx
  | cons u us ih =>
    obtain ⟨⟨x, hx⟩, hrest⟩ := List.forall_mem_cons.mp h
    have hcut := terms_append (c := '+') rfl (t ++ [' '])
      ([' '] ++ ([' ', '+', ' '].intercalate (u :: us) ++ back))
    rw [(terms_of_spaces hspace t).2, terms_of_spells hx, terms_plus, (terms_of_spaces hspace _).1,
      ih hrest] at hcut
    rw [List.intercalate_cons_cons]
    simpa using hcut

variable {a : Address}

/-- A displacement behind other terms is written as one behind a symbol may be. -/
lemma isDisplacement_dispText (h : a.terms ≠ []) :
    IsDisplacement [' '] a.dispText.toList (.ok a.disp) := by
  have hnumber : ∀ (negative : Bool) (n : ℕ) (s : String),
      s.toList = [' ', if negative then '-' else '+', ' ', '0', 'x'] →
      a.disp = (if negative then -(n : ℤ) else n) →
      IsDisplacement [' '] (s ++ Text.hexInt n).toList (.ok a.disp) := by
    intro negative n s hs hdisp
    have hadds := @IsDisplacement.number [' '] negative _ _ (isNumeral_hexDigits 1 n)
    rw [← hdisp] at hadds
    rw [String.toList_append, hs, toList_hexInt]
    exact hadds
  have hterms : a.terms.isEmpty = false := List.isEmpty_eq_false_iff.mpr h
  rw [Address.dispText, hterms]
  simp only [Bool.false_eq_true, if_false]
  split_ifs with hneg hzero
  · obtain ⟨n, hn⟩ := Int.eq_ofNat_of_zero_le (Int.neg_nonneg_of_nonpos hneg.le)
    have hdisp : a.disp = -(n : ℤ) := by omega
    rw [hn]
    exact hnumber true n " - 0x" rfl hdisp
  · rw [hzero]
    exact .none
  · obtain ⟨n, hn⟩ := Int.eq_ofNat_of_zero_le (not_lt.mp hneg)
    have htext := hnumber false n " + 0x" rfl hn
    rwa [← hn] at htext

lemma spells_index (d : Scale) (r : Register) :
    ∃ x, Spells (d.factorText ++ r.name.toList) x := by
  by_cases hd : d = .one
  · exact ⟨_, by rw [Scale.factorText, if_pos hd]; exact .register (register?_name r)⟩
  · rw [Scale.factorText, if_neg hd, List.append_assoc]
    exact ⟨_, .scaledLeft (isNumeral_toDigits d.factor) (register?_name r)⟩

/-- Every term is one that can be read. -/
lemma exists_spells (ha : a.IsFormed) : ∀ u ∈ a.parts, ∃ x, Spells u x := by
  intro u hu
  simp only [Address.parts, List.mem_append, Option.mem_toList, Option.map_eq_some_iff] at hu
  obtain (⟨r, -, rfl⟩ | ⟨r, -, rfl⟩) | ⟨name, hname, rfl⟩ := hu
  · exact ⟨_, .register (register?_name r)⟩
  · exact spells_index _ r
  · obtain ⟨-, hsymbol, hregister⟩ := ha.symbol name hname
    exact ⟨_, .symbol hsymbol hregister⟩

/-- An index that shows its factor is read as one, and so is one behind a base. -/
lemma add_index {d : Scale} {r : Register} {sum : Sum} (hbase : d = .one → sum.base.isSome = true)
    (hindex : sum.index = none) : sum.add line op ⟨false, d.factorText ++ r.name.toList⟩ =
      .ok { sum with index := some r, scale := some (d.factor : ℤ) } := by
  have hname := register?_name r
  by_cases hd : d = .one
  · obtain ⟨b, hb⟩ := Option.isSome_iff_exists.mp (hbase hd)
    rw [Scale.factorText, if_pos hd, List.nil_append, add_register hname, hb, hindex, hd]
    rfl
  · have hdigits := isNumeral_toDigits d.factor
    have hshort : isTooLong (Nat.toDigits 10 d.factor) = false := by cases d <;> decide
    have hnumber : number (Nat.toDigits 10 d.factor) = .ok (d.factor : ℤ) := by
      rw [number, number?_of_isNumeral hdigits, hshort, if_neg Bool.false_ne_true]
    have hcut : Text.cutAt '*' (Nat.toDigits 10 d.factor ++ '*' :: r.name.toList) =
        (Nat.toDigits 10 d.factor, some r.name.toList) :=
      Text.cutAt_append (notMem_of_isAlphanum hdigits.isAlphanum)
    rw [Scale.factorText, if_neg hd, List.append_assoc, List.singleton_append]
    unfold Sum.add
    simp only [hcut, product, register?_of_isNumeral hdigits, hname, isNumber_of_isNumeral hdigits,
      hnumber, hindex]
    rfl

/-- The terms make up the sum that the address is of, unless the index stands for a base. -/
lemma foldlM_parts (ha : a.IsFormed) (hscale : a.base = none → a.scale ≠ some .one) :
    (a.parts.map (⟨false, ·⟩)).foldlM (Sum.add line op) {} =
      .ok ⟨a.base, a.index, a.scale.map fun d => (d.factor : ℤ), 0, a.symbol⟩ := by
  have hbase : ((a.base.map (·.name.toList)).toList.map (⟨false, ·⟩)).foldlM (Sum.add line op) {} =
      .ok { base := a.base } := by
    cases a.base with
    | none => rfl
    | some r => exact foldlM_cons_eq_ok.mpr ⟨_, add_register (register?_name r) line op {}, rfl⟩
  have hindex : ((a.index.map fun r =>
      (a.scale.getD .one).factorText ++ r.name.toList).toList.map (⟨false, ·⟩)).foldlM
        (Sum.add line op) { base := a.base } =
      .ok ⟨a.base, a.index, a.scale.map fun d => (d.factor : ℤ), 0, none⟩ := by
    have hsame := ha.scale
    cases hr : a.index with
    | none =>
      rw [hr, Option.isSome_none, Option.isSome_eq_false_iff, Option.isNone_iff_eq_none] at hsame
      rw [hsame]
      rfl
    | some r =>
      rw [hr] at hsame
      obtain ⟨d, hd⟩ := Option.isSome_iff_exists.mp hsame
      rw [hd] at hscale ⊢
      have hbehind : d = .one → a.base.isSome = true := fun hone =>
        Option.isSome_iff_ne_none.mpr fun hnone => hscale hnone (congrArg some hone)
      exact foldlM_cons_eq_ok.mpr ⟨_, add_index hbehind rfl, rfl⟩
  have hsymbol : ∀ s : Sum, s.symbol = none →
      ((a.symbol.map String.toList).toList.map (⟨false, ·⟩)).foldlM (Sum.add line op) s =
        .ok { s with symbol := a.symbol } := by
    intro s hs
    cases hname : a.symbol with
    | none => exact congrArg (fun o => Except.ok { s with symbol := o }) hs
    | some name =>
      obtain ⟨-, hsymbol, hregister⟩ := ha.symbol name hname
      exact foldlM_cons_eq_ok.mpr ⟨_, add_symbol hsymbol hregister line op hs, rfl⟩
  rw [Address.parts, List.map_append, List.map_append, List.foldlM_append, List.foldlM_append]
  exact bind_eq_ok.mpr ⟨_, bind_eq_ok.mpr ⟨_, hbase, hindex⟩, hsymbol _ rfl⟩

/-! ## Reading an address -/

/-- The address of the sum of its terms. -/
lemma address_of_isFormed (ha : a.IsFormed) (line : Option ℕ) (op : String) :
    Sum.address line op a.bits
      ⟨a.base, a.index, a.scale.map fun d => (d.factor : ℤ), a.disp, a.symbol⟩ = .ok a := by
  have hregisters : ∀ r ∈ a.base.toList ++ a.index.toList, (r != .rip && !r.isAddressing) = false := by
    intro r hr
    rcases ha.registers r hr with rfl | haddressing
    · rfl
    · rw [haddressing, Bool.not_true, Bool.and_false]
  have hindexed : (a.index.isSome && (a.base == some .rip || a.index == some .rip)) = false := by
    cases hr : a.index with
    | none => rfl
    | some r =>
      obtain ⟨hbase, hindex⟩ := ha.index (by rw [hr]; rfl)
      rw [hr] at hindex
      rw [beq_eq_false_iff_ne.mpr hbase, beq_eq_false_iff_ne.mpr hindex]
      rfl
  have hvector : (a.index.map (·.isVector)).getD false = false := by
    cases hr : a.index with
    | none => rfl
    | some r =>
      have hmem : r ∈ a.base.toList ++ a.index.toList := by simp [hr]
      rcases ha.registers r hmem with rfl | haddressing
      · rfl
      · cases r <;> first | rfl | cases haddressing
  have hwrong : ∀ s : Sum, s.base = a.base → s.index = a.index → s.wrongRegister? = none := by
    intro s hbase hindex
    rw [Sum.wrongRegister?, hbase, hindex, List.find?_eq_none]
    exact fun r hr => by rw [hregisters r hr]; exact Bool.false_ne_true
  have hfactor : ∀ d : Scale, Scale.ofFactor? d.factor = some d := fun d => by
    cases d <;> rfl
  have hsame := ha.scale
  have hsymbol : ∀ name ∈ a.symbol, (a.base != some .rip) = false := fun name hname => by
    rw [(ha.symbol name hname).1]
    rfl
  obtain ⟨base, index, scale, disp, bits, symbol⟩ := a
  unfold Sum.address
  dsimp only at *
  rw [hindexed, hvector, hwrong _ rfl rfl]
  rcases symbol with _ | name <;> [skip; simp only [hsymbol name rfl]]
  all_goals
    cases scale with
    | none => cases index <;> first | rfl | cases hsame
    | some d =>
      simp only [Option.map_some, hfactor]
      cases index <;> rfl

variable {bits : Option ℕ}

/-- An address with terms is read as the sum of them and of its displacement. -/
lemma readAddress_sumText (ha : a.IsFormed) (hne : a.parts ≠ []) :
    readAddress line bits a.sumText.toList =
      (a.parts.map (⟨false, ·⟩)).foldlM (Sum.add line a.sumText) {} >>= fun s =>
        Sum.address line a.sumText bits { s with disp := s.disp + a.disp } := by
  have hterms : a.terms ≠ [] := fun hnil => hne (by rw [← a.toList_terms, hnil, List.map_nil])
  have hdisp := isDisplacement_dispText hterms
  have hinner : terms a.inner = a.parts.map (⟨false, ·⟩) ++ terms a.dispText.toList := by
    obtain ⟨u, us, hparts⟩ := List.exists_cons_of_ne_nil hne
    have hspells := exists_spells ha
    rw [hparts] at hspells
    rw [Address.inner, hparts]
    exact terms_row hdisp hspells
  have hsum : addressTerms? a.sumText.toList = some a.inner := by
    rw [a.toList_sumText]
    exact congrArg some List.dropLast_concat
  unfold readAddress
  simp only [hsum, String.ofList_toList, hinner, List.foldlM_append,
    foldlM_displacement (by decide) hdisp]
  cases (a.parts.map (⟨false, ·⟩)).foldlM (Sum.add line a.sumText) {} <;> rfl

/-- Without terms an address is its displacement. -/
lemma inner_of_parts_eq_nil (h : a.parts = []) :
    a.inner = ['0', 'x'] ++ (if a.disp < 0 then ['-'] else []) ++ Text.hexDigits 1 a.disp.natAbs := by
  have hterms : a.terms.isEmpty = true := by
    rw [← List.isEmpty_map, a.toList_terms, h, List.isEmpty_nil]
  rw [Address.inner, h, List.intercalate_nil, List.nil_append, Address.dispText, hterms, if_pos rfl,
    String.toList_append, Text.hexInt]
  split_ifs
  · rw [String.toList_append, toList_hex]
    rfl
  · rw [toList_hex]
    rfl

lemma forall_none_of_parts_eq_nil (h : a.parts = []) :
    a.base = none ∧ a.index = none ∧ a.symbol = none := by
  simpa [Address.parts, and_assoc] using h

/-- A displacement without terms is read as long as it shows no sign. -/
lemma readAddress_lone (ha : a.IsFormed) (h : a.parts = []) :
    readAddress line a.bits a.sumText.toList = .ok a ↔ 0 ≤ a.disp := by
  have hsum : addressTerms? a.sumText.toList = some a.inner := by
    rw [a.toList_sumText]
    exact congrArg some List.dropLast_concat
  have hinner := inner_of_parts_eq_nil h
  unfold readAddress
  simp only [hsum, String.ofList_toList]
  rcases lt_or_ge a.disp 0 with hneg | hnonneg
  · have hterms : terms a.inner =
        ⟨false, ['0', 'x']⟩ :: terms ('-' :: Text.hexDigits 1 a.disp.natAbs) := by
      rw [hinner, if_pos hneg]
      exact terms_append (c := '-') rfl ['0', 'x'] _
    have hmark : Sum.add line a.sumText {} ⟨false, ['0', 'x']⟩ =
        .error (defectAt line "0x" (.addressUnreadable a.sumText)) := by
      have hregister : register? ['0', 'x'] = none := by decide
      have hcut : Text.cutAt '*' ['0', 'x'] = (['0', 'x'], none) := rfl
      have hnumber : isNumber ['0', 'x'] = false := rfl
      have hsymbol : isSymbol ['0', 'x'] = false := rfl
      unfold Sum.add
      simp only [hcut, hregister, hnumber, hsymbol]
      rfl
    rw [hterms, List.foldlM_cons, hmark]
    refine iff_of_false (fun hread => ?_) (not_le.mpr hneg)
    cases hread
  · obtain ⟨n, hn⟩ := Int.eq_ofNat_of_zero_le hnonneg
    obtain ⟨hbase, hindex, hsymbol⟩ := forall_none_of_parts_eq_nil h
    have hnumeral := isNumeral_hexDigits 1 n
    have hterms : terms a.inner = [⟨false, '0' :: 'x' :: Text.hexDigits 1 n⟩] := by
      rw [hinner, if_neg (not_lt.mpr hnonneg), hn]
      exact terms_of_spells (.number hnumeral)
    have hscale : a.scale = none := by
      rw [← Option.isSome_eq_false_iff.trans Option.isNone_iff_eq_none, ha.scale, hindex]
      rfl
    have haddress := address_of_isFormed ha line a.sumText
    rw [hbase, hindex, hscale, hsymbol] at haddress
    have hread : [(⟨false, '0' :: 'x' :: Text.hexDigits 1 n⟩ : Term)].foldlM
        (Sum.add line a.sumText) {} = .ok { disp := a.disp } := by
      rw [List.foldlM_cons, add_number hnumeral, hn]
      exact congrArg (fun k : ℤ => Except.ok ({ disp := k } : Sum)) (zero_add (n : ℤ))
    rw [hterms, hread]
    exact iff_of_true haddress hnonneg

/-- The text of an address is read as the address just if it is not misprinted. -/
lemma readAddress_sumText_iff (ha : a.IsFormed) :
    readAddress line a.bits a.sumText.toList = .ok a ↔ ¬ a.IsMisprinted := by
  have hsymbol : a.base = none → a.symbol = none := fun hbase =>
    Option.eq_none_iff_forall_not_mem.mpr fun name hname => by
      cases hbase.symm.trans (ha.symbol name hname).1
  by_cases hlone : a.parts = []
  · obtain ⟨hbase, hindex, -⟩ := forall_none_of_parts_eq_nil hlone
    rw [readAddress_lone ha hlone]
    constructor
    · rintro hdisp (⟨-, hscale⟩ | ⟨-, -, hneg⟩)
      · have hsame := ha.scale
        rw [hindex, hscale] at hsame
        cases hsame
      · exact not_lt.mpr hdisp hneg
    · exact fun hnot => not_lt.mp fun hneg => hnot (.negative hbase hindex hneg)
  · rw [readAddress_sumText ha hlone]
    constructor
    · rintro h (⟨hbase, hscale⟩ | ⟨hbase, hindex, -⟩)
      · -- The index is the first register of the sum, which makes it the base.
        have hsame := ha.scale
        rw [hscale] at hsame
        obtain ⟨r, hr⟩ := Option.isSome_iff_exists.mp hsame.symm
        have hparts : a.parts = [r.name.toList] := by
          rw [Address.parts, hbase, hr, hsymbol hbase, hscale]
          rfl
        obtain ⟨s, hs, haddress⟩ := bind_eq_ok.mp h
        rw [hparts] at hs
        obtain ⟨s', hadd, hs'⟩ := foldlM_cons_eq_ok.mp hs
        rw [add_register (register?_name r)] at hadd
        obtain rfl := Except.ok.inj hadd
        obtain rfl := Except.ok.inj hs'
        rcases address_cases _ a.sumText a.bits with ⟨text, d, hrefused, -⟩ | ⟨-, scale, -, hok⟩
        · cases hrefused.symm.trans haddress
        · have hread := congrArg Address.base (Except.ok.inj (hok.symm.trans haddress))
          cases hbase.symm.trans hread.symm
      · refine hlone ?_
        rw [Address.parts, hbase, hindex, hsymbol hbase]
        rfl
    · intro hnot
      refine bind_eq_ok.mpr ⟨_, foldlM_parts ha fun hbase hscale => hnot (.unscaled hbase hscale), ?_⟩
      dsimp only
      rw [zero_add]
      exact address_of_isFormed ha line a.sumText

/-! ## Operands -/

/-- Spaces are the only characters of a sum besides those of its terms and signs. -/
lemma mem_inner (ha : a.IsFormed) {c : Char} (hc : c ∈ a.inner) : c = ' ' ∨ isSumChar c = true := by
  by_cases hlone : a.parts = []
  · have hdigit : ∀ d ∈ Text.hexDigits 1 a.disp.natAbs, isSumChar d = true := fun d hd =>
      isSumChar_of_spells (.number (isNumeral_hexDigits 1 a.disp.natAbs)) d (by simp [hd])
    rw [inner_of_parts_eq_nil hlone, List.mem_append, List.mem_append] at hc
    obtain (hc | hc) | hc := hc
    · have hmark : ∀ d ∈ ['0', 'x'], isSumChar d = true := by decide
      exact .inr (hmark c hc)
    · split_ifs at hc
      · exact .inr (List.mem_singleton.mp hc ▸ rfl)
      · cases hc
    · exact .inr (hdigit c hc)
  · have hterms : a.terms ≠ [] := fun hnil => hlone (by rw [← a.toList_terms, hnil, List.map_nil])
    rw [Address.inner, List.mem_append] at hc
    rcases hc with hc | hc
    · rcases Text.mem_of_mem_intercalate hc with hsep | ⟨u, hu, hc⟩
      · have hall : ∀ d ∈ [' ', '+', ' '], d = ' ' ∨ isSumChar d = true := by decide
        exact hall c hsep
      · obtain ⟨x, hx⟩ := exists_spells ha u hu
        exact .inr (isSumChar_of_spells hx c hc)
    · exact ((isDisplacement_dispText hterms).chars c hc).imp_left List.mem_singleton.mp

/-- The width of an address is written as a hint. -/
lemma exists_front_text (ha : a.IsReadable) : ∃ front, IsFront a.bits front ∧
    (∀ c ∈ front.head?, Text.isBlank c = false) ∧ (∀ c ∈ front, c = ' ' ∨ isSumChar c = true) ∧
      a.text?.map String.toList = some (front ++ a.sumText.toList) := by
  cases hbits : a.bits with
  | none => exact ⟨[], rfl, by simp, by simp, by rw [Address.text?, hbits]; rfl⟩
  | some n =>
    have hnamed : ∀ n ∈ widthWords.map (·.2), (sizeWord? n).isSome = true := by decide
    have hwords : ∀ p ∈ sizeWords, (p.2, p.1) ∈ widthWords ∧
        p.2.toList.map Char.toLower = p.2.toList ∧
        (∀ c ∈ p.2.toList.head?, Text.isBlank c = false) ∧ p.2.toList ≠ [] ∧
        ∀ c ∈ p.2.toList, isSumChar c = true := by decide
    obtain ⟨w, hw⟩ := Option.isSome_iff_exists.mp (hnamed n (ha.bits n hbits))
    obtain ⟨⟨m, _⟩, hfound, rfl⟩ := Option.map_eq_some_iff.mp hw
    have hm := List.find?_some hfound
    rw [beq_iff_eq] at hm
    obtain rfl : m = n := hm
    obtain ⟨hword, hlower, hhead, hne, hchars⟩ := hwords _ (List.mem_of_find?_eq_some hfound)
    have hblank : ∀ c ∈ [' '], Text.isBlank c = true := by decide
    have hfront : IsFront (some m) ((_ ++ [' ']) ++ "ptr ".toList) :=
      IsHint.ptr hword ⟨_, [' '], rfl, hlower, by decide, hblank⟩
        ⟨"ptr".toList, [' '], rfl, by decide, by decide, hblank⟩
    refine ⟨_, hfront, ?_, ?_, ?_⟩
    · rw [List.append_assoc, List.head?_append_of_ne_nil _ hne]
      exact hhead
    · have hptr : ∀ c ∈ "ptr ".toList, c = ' ' ∨ isSumChar c = true := by decide
      intro c hc
      obtain (hc | hc) | hc := (List.mem_append.mp hc).imp_left List.mem_append.mp
      · exact .inr (hchars c hc)
      · exact .inl (List.mem_singleton.mp hc)
      · exact hptr c hc
    · rw [Address.text?, hbits]
      dsimp only
      rw [hw, Option.map_some, Option.map_some, String.toList_append, String.toList_append]
      exact congrArg some (by simp)

/-- A bracket begins neither the word for an absolute address nor the name of a segment. -/
lemma readBracketed_bracket (t : List Char) :
    readBracketed line bits ('[' :: t) = (readAddress line bits ('[' :: t)).map .mem := by
  have hoffset : isOffset ('[' :: t) = false := rfl
  have hsegmented : isSegmented ('[' :: t) = false := by
    unfold isSegmented
    split
    · rename_i heq
      obtain ⟨rfl, -⟩ := List.cons.inj heq
      rfl
    · rfl
  rw [readBracketed, hoffset, hsegmented]
  rfl

/-- The text of an operand that can be written is read as the operand just if it is not
misprinted. -/
theorem readOperand_text_iff {o : Operand} (ho : o.IsFormed) (hwritable : ¬ o.IsUnwritable)
    {text : String} (htext : o.text? = some text) :
    readOperand line text.toList = .ok o ↔ ¬ o.IsMisprinted := by
  have hplain : o.address? = none → ¬ o.IsMisprinted := by
    rintro hnone ⟨a, rfl, -⟩
    cases hnone
  cases ho with
  | reg hr =>
    obtain rfl := Option.some.inj htext
    exact iff_of_true (readOperand_register hr) (hplain rfl)
  | imm v =>
    obtain rfl := Option.some.inj htext
    exact iff_of_true (readOperand_imm hwritable) (hplain rfl)
  | sym hname hregister hoffset =>
    obtain rfl := Option.some.inj htext
    exact iff_of_true (readOperand_symbol hname hregister hoffset) (hplain rfl)
  | @mem a ha =>
    obtain ⟨front, hfront, -, -, hfrontText⟩ := exists_front_text ha.toIsReadable
    have htoList : text.toList = front ++ a.sumText.toList := by
      rw [Operand.text?] at htext
      rw [htext] at hfrontText
      exact Option.some.inj hfrontText
    have hline : '\n' ∉ a.inner := fun hmem => by
      rcases mem_inner ha hmem with h | h
      · cases h
      · exact absurd (plain_of_isSumChar h).1 (by decide)
    have hread : readOperand line (front ++ a.sumText.toList) =
        (readAddress line a.bits a.sumText.toList).map .mem := by
      rw [a.toList_sumText, readOperand_front hfront (isPlainOperand_of_bracket hline),
        readBracketed_bracket]
    have hmisprinted : (Operand.mem a).IsMisprinted ↔ a.IsMisprinted := by
      constructor
      · rintro ⟨b, hb, h⟩
        exact Operand.mem.inj hb ▸ h
      · exact fun h => ⟨a, rfl, h⟩
    rw [htoList, hread, hmisprinted, ← readAddress_sumText_iff ha]
    constructor
    · intro h
      obtain ⟨b, hb, hmem⟩ := map_eq_ok.mp h
      exact Operand.mem.inj hmem ▸ hb
    · intro h
      rw [h]
      rfl

end Source

end AsmBridge
