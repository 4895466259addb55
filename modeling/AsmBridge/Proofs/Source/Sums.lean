import AsmBridge.Proofs.Source.Terms
import AsmBridge.Proofs.Stack.Alignment
import Mathlib.Algebra.BigOperators.Group.List.Basic

/-!
# Memory operands as sums

A memory operand is written as a sum of signed terms, some of which may stand in front of the
brackets. One term more adds its value to the sum that is read (`Sum.Adds.value_eq`), so that an
address that is read has the value of all the terms, in whatever order they are written, and the
terms with a minus sign are numbers (`readAddress_isSum`).
-/

namespace AsmBridge

/-- The value of an address together with its symbol. -/
def Address.value (a : Address) (regs : Register → ℤ) (symbols : String → ℤ) : ℤ :=
  a.effective regs + (a.symbol.map symbols).getD 0

namespace Source

/-- The value of a term without its sign. -/
def Summand.value (regs : Register → ℤ) (symbols : String → ℤ) : Summand → ℤ
  | .register r => regs r
  | .scaled n r => n * regs r
  | .number v => v
  | .symbol name => symbols name

/-- A term with its sign. -/
structure Addend where
  negative : Bool
  summand : Summand
deriving DecidableEq, Repr

/-- The value of a term with its sign. -/
def Addend.value (regs : Register → ℤ) (symbols : String → ℤ) (x : Addend) : ℤ :=
  if x.negative then -x.summand.value regs symbols else x.summand.value regs symbols

/-- The text is a row of terms, each behind its sign. -/
inductive IsRow : List Char → List Addend → Prop
  | nil : IsRow [] []
  | cons {t s : List Char} {x : Addend} {xs : List Addend} (ht : Spells t x.summand)
    (hs : IsRow s xs) : IsRow ((if x.negative then '-' else '+') :: (t ++ s)) (x :: xs)

/-- The text, spaces apart, is a sum of the terms. A plus in front of it may be left out. -/
def Writes (s : List Char) (xs : List Addend) : Prop :=
  IsRow (s.filter (· != ' ')) xs ∨ IsRow ('+' :: s.filter (· != ' ')) xs

/-- The memory operand is a sum of the terms, of which the first ones may stand in front of the
brackets. -/
def WritesAddress (op : List Char) (xs : List Addend) : Prop :=
  ∃ outer inner us vs, op = outer ++ '[' :: (inner ++ [']']) ∧ xs = us ++ vs ∧
    Writes outer us ∧ Writes inner vs

variable {s t : List Char} {regs : Register → ℤ} {symbols : String → ℤ}

/-! ## The terms of a sum -/

/-- The term that is read is the term with its sign. -/
structure Matches (t : Term) (x : Addend) : Prop where
  negative : t.negative = x.negative
  text : Spells t.text x.summand

/-- The terms of a row are those that it is written from. -/
lemma IsRow.exists_terms {xs : List Addend} (h : IsRow s xs) :
    ∃ ts, List.Forall₂ Matches ts xs ∧
      ∀ negative run, termsFrom negative run s = termsFrom negative run [] ++ ts := by
  induction h with
  | nil => exact ⟨[], .nil, fun negative run => (List.append_nil _).symm⟩
  | @cons t s x xs ht _ ih =>
    obtain ⟨ts, hts, hread⟩ := ih
    obtain ⟨hsign, hnegative⟩ := sign_of_negative x.negative
    have hplain := fun c hc => (plain_of_isTermChar (ht.plain.2 c hc)).2.1
    have hfirst : termsFrom x.negative [] (t ++ s) = ⟨x.negative, t⟩ :: ts := by
      have hterm := termsFrom_append hplain x.negative [] []
      rw [List.append_nil, termsFrom_of_spells ht] at hterm
      rw [termsFrom_append hplain, hread, ← hterm, List.singleton_append]
    refine ⟨⟨x.negative, t⟩ :: ts, .cons ⟨rfl, ht⟩ hts, fun negative run => ?_⟩
    have hrow := termsFrom_sign hsign negative run [] (t ++ s)
    rw [List.nil_append] at hrow
    rw [hrow, hnegative, hfirst]

/-- The terms that are read from a sum. -/
lemma Writes.terms {xs : List Addend} (h : Writes s xs) : List.Forall₂ Matches (terms s) xs := by
  rcases h with h | h
  · obtain ⟨ts, hts, hread⟩ := h.exists_terms
    rwa [Source.terms, hread false []]
  · obtain ⟨ts, hts, hread⟩ := h.exists_terms
    rw [← terms_plus, Source.terms, filter_sign rfl]
    rwa [hread false []]

/-! ## One term more -/

/-- What one term more makes of a sum that is read. Only a number may have a minus sign. -/
inductive Sum.Adds (s : Sum) : Addend → Sum → Prop
  | base {r : Register} (h : s.base = none) : s.Adds ⟨false, .register r⟩ { s with base := some r }
  | index {r : Register} (h : s.index = none) :
    s.Adds ⟨false, .register r⟩ { s with index := some r, scale := some 1 }
  | scaled {factor : ℕ} {r : Register} (h : s.index = none) :
    s.Adds ⟨false, .scaled factor r⟩ { s with index := some r, scale := some (factor : ℤ) }
  | number {negative : Bool} {v : ℕ} :
    s.Adds ⟨negative, .number v⟩ { s with disp := s.disp + if negative then -(v : ℤ) else v }
  | symbol {name : String} (h : s.symbol = none) :
    s.Adds ⟨false, .symbol name⟩ { s with symbol := some name }

section Step

variable {line : Option ℕ} {op : String} {sum sum' : Sum}

/-- A product is read as such, in either order. -/
lemma product_of_spells (fail : Defect → Fault) {factor : ℕ} {r : Register}
    (ht : Spells t (.scaled factor r)) : ∃ a b, Text.cutAt '*' t = (a, some b) ∧
      ∀ p, product fail t a b = .ok p → p = (r, (factor : ℤ)) := by
  cases ht with
  | scaledLeft hn h =>
    refine ⟨_, _, Text.cutAt_append (notMem_of_isAlphanum hn.isAlphanum), fun p hp => ?_⟩
    simp only [product, register?_of_isNumeral hn, h, isNumber_of_isNumeral hn] at hp
    obtain ⟨v, hv, rfl⟩ := map_eq_ok.mp hp
    rw [number_of_isNumeral hn hv]
  | scaledRight h hn =>
    refine ⟨_, _, Text.cutAt_append (notMem_of_isAlphanum (isAlphanum_of_register? h).2),
      fun p hp => ?_⟩
    simp only [product, h, isNumber_of_isNumeral hn] at hp
    obtain ⟨v, hv, rfl⟩ := map_eq_ok.mp hp
    rw [number_of_isNumeral hn hv]

/-- A term that can be added is added. -/
lemma adds_of_add {y : Term} {z : Addend} (hy : Matches y z)
    (h : sum.add line op y = .ok sum') : sum.Adds z sum' := by
  obtain ⟨negative, text⟩ := y
  obtain ⟨_, summand⟩ := z
  obtain ⟨rfl, ht⟩ := hy
  unfold Sum.add at h
  dsimp only at h ht
  cases summand with
  | scaled factor r =>
    obtain ⟨a, b, hcut, hproduct⟩ := product_of_spells (defectAt line op) ht
    rw [hcut] at h
    obtain ⟨p, hp, h⟩ := bind_eq_ok.mp h
    obtain rfl := hproduct p hp
    cases hindex : sum.index with
    | some _ =>
      rw [hindex] at h
      cases h
    | none =>
      rw [hindex] at h
      cases negative with
      | true => cases h
      | false => exact Except.ok.inj h ▸ .scaled hindex
  | register r =>
    cases ht with
    | register hname =>
      rw [Text.cutAt_of_notMem (notMem_of_isAlphanum (isAlphanum_of_register? hname).2)] at h
      simp only [hname] at h
      cases negative with
      | true => cases h
      | false =>
        cases hbase : sum.base with
        | none =>
          rw [hbase] at h
          exact Except.ok.inj h ▸ .base hbase
        | some _ =>
          cases hindex : sum.index with
          | none =>
            rw [hbase, hindex] at h
            exact Except.ok.inj h ▸ hbase ▸ .index hindex
          | some _ =>
            rw [hbase, hindex] at h
            cases h
  | number v =>
    cases ht with
    | number hn =>
      rw [Text.cutAt_of_notMem (notMem_of_isAlphanum hn.isAlphanum)] at h
      simp only [register?_of_isNumeral hn, isNumber_of_isNumeral hn, if_true] at h
      obtain ⟨w, hw, h⟩ := bind_eq_ok.mp h
      obtain rfl := number_of_isNumeral hn hw
      exact pure_eq_ok.mp h ▸ .number
  | symbol name =>
    cases ht with
    | symbol hname hregister =>
      obtain ⟨hsymbol, hnumber, hstar⟩ := isSymbol_of_isSymbol hname
      rw [Text.cutAt_of_notMem hstar] at h
      simp only [hregister, hnumber, hsymbol, if_true, Bool.false_eq_true, if_false] at h
      cases hfree : sum.symbol with
      | some _ =>
        rw [hfree] at h
        cases h
      | none =>
        rw [hfree] at h
        cases negative with
        | true => cases h
        | false =>
          rw [String.ofList_toList] at h
          exact Except.ok.inj h ▸ .symbol hfree

end Step

/-! ## The value of a sum -/

/-- The value of the terms that have been read. -/
def Sum.value (s : Sum) (regs : Register → ℤ) (symbols : String → ℤ) : ℤ :=
  (s.base.map regs).getD 0 + (s.index.map fun r => s.scale.getD 1 * regs r).getD 0 + s.disp +
    (s.symbol.map symbols).getD 0

/-- One term more adds its value. -/
lemma Sum.Adds.value_eq {s s' : Sum} {z : Addend} (h : s.Adds z s') :
    s'.value regs symbols = s.value regs symbols + z.value regs symbols := by
  cases h with
  | number =>
    simp only [Sum.value, Addend.value, Summand.value]
    ring
  | symbol h => simp [Sum.value, Addend.value, Summand.value, h]
  | base h | index h | scaled h =>
    simp [Sum.value, Addend.value, Summand.value, h]
    ring

lemma Sum.Adds.number_of_negative {s s' : Sum} {z : Addend} (h : s.Adds z s')
    (hz : z.negative = true) : ∃ v, z.summand = .number v := by
  cases h with
  | number => exact ⟨_, rfl⟩
  | _ => cases hz

/-- All the terms together add their values. -/
lemma value_of_foldlM {line : Option ℕ} {op : String} {ts : List Term} {xs : List Addend}
    (hts : List.Forall₂ Matches ts xs) {s s' : Sum} (h : ts.foldlM (Sum.add line op) s = .ok s') :
    (∀ regs symbols, s'.value regs symbols =
      s.value regs symbols + (xs.map (Addend.value regs symbols)).sum) ∧
      ∀ x ∈ xs, x.negative = true → ∃ v, x.summand = .number v := by
  induction hts generalizing s with
  | nil =>
    obtain rfl := pure_eq_ok.mp h
    exact ⟨fun regs symbols => by simp, by simp⟩
  | @cons t x ts xs hx _ ih =>
    obtain ⟨s₁, hadd, h⟩ := foldlM_cons_eq_ok.mp h
    have hstep := adds_of_add hx hadd
    obtain ⟨hvalue, hnumbers⟩ := ih h
    refine ⟨fun regs symbols => ?_, List.forall_mem_cons.mpr ⟨hstep.number_of_negative, hnumbers⟩⟩
    rw [hvalue, hstep.value_eq, List.map_cons, List.sum_cons, add_assoc]

/-- An address has the value of its sum. -/
lemma value_of_address {line : Option ℕ} {op : String} {bits : Option ℕ} {s : Sum} {a : Address}
    (h : s.address line op bits = .ok a) : a.value regs symbols = s.value regs symbols := by
  rcases address_cases s op bits with ⟨text, d, hrefused, -⟩ | ⟨-, scale, hscale, hok⟩
  · cases hrefused.symm.trans h
  · obtain rfl := Except.ok.inj (hok.symm.trans h)
    rw [Address.value, Address.effective, Address.ofParts, Sum.value, hscale]
    cases s.index with
    | none => simp
    | some r => cases scale <;> simp [Scale.factor]

lemma notMem_of_writes {xs : List Addend} (h : Writes s xs) : '[' ∉ s := by
  have hrow : ∀ {s xs}, IsRow s xs → '[' ∉ s := by
    intro s xs h
    induction h with
    | nil => exact List.not_mem_nil
    | @cons t s x xs ht _ ih =>
      have hterm : '[' ∉ t := fun hmem => (plain_of_isTermChar (ht.plain.2 _ hmem)).2.2.1 rfl
      rw [List.mem_cons, List.mem_append, not_or, not_or]
      exact ⟨by cases x.negative <;> decide, hterm, ih⟩
  have hfilter : '[' ∈ s → '[' ∈ s.filter (· != ' ') := fun hmem =>
    List.mem_filter.mpr ⟨hmem, by decide⟩
  rcases h with h | h
  · exact fun hmem => hrow h (hfilter hmem)
  · exact fun hmem => hrow h (List.mem_cons_of_mem _ (hfilter hmem))

/-- A memory operand that is read has the value of the terms from which it is written. -/
lemma value_of_readAddress {line : Option ℕ} {bits : Option ℕ} {op : List Char} {xs : List Addend}
    {a : Address} (hop : WritesAddress op xs) (h : readAddress line bits op = .ok a) :
    (∀ regs symbols, a.value regs symbols = (xs.map (Addend.value regs symbols)).sum) ∧
      ∀ x ∈ xs, x.negative = true → ∃ v, x.summand = .number v := by
  obtain ⟨outer, inner, us, vs, rfl, rfl, houter, hinner⟩ := hop
  unfold readAddress at h
  dsimp only at h
  cases hsum : addressTerms? (outer ++ '[' :: (inner ++ [']'])) with
  | none =>
    rw [hsum] at h
    cases h
  | some sum =>
    rw [hsum] at h
    obtain ⟨s, hfold, haddress⟩ := bind_eq_ok.mp h
    rw [terms_of_addressTerms? (notMem_of_writes houter) hsum] at hfold
    obtain ⟨hvalue, hnumbers⟩ := value_of_foldlM (List.rel_append hinner.terms houter.terms) hfold
    constructor
    · intro regs symbols
      rw [value_of_address haddress, hvalue, List.map_append, List.sum_append, List.map_append,
        List.sum_append]
      simp [Sum.value]
      ring
    · intro x hx
      refine hnumbers x ?_
      rw [List.mem_append] at hx ⊢
      exact hx.symm

/-- A memory operand that is read has the value of the terms from which it is written, and a minus
sign is one of a number. Two operands with the same terms, in whatever order, have the same value if
both are read. -/
theorem readAddress_isSum {line : Option ℕ} {bits : Option ℕ} {op : List Char} {xs : List Addend}
    {a : Address} (hop : WritesAddress op xs) (h : readAddress line bits op = .ok a) :
    (∀ regs symbols, a.value regs symbols = (xs.map (Addend.value regs symbols)).sum) ∧
      (∀ x ∈ xs, x.negative = true → ∃ v, x.summand = .number v) ∧
      ∀ line' bits' op' ys b, WritesAddress op' ys → xs.Perm ys →
        readAddress line' bits' op' = .ok b →
        ∀ regs symbols, b.value regs symbols = a.value regs symbols := by
  obtain ⟨hvalue, hnumbers⟩ := value_of_readAddress hop h
  refine ⟨hvalue, hnumbers, ?_⟩
  intro line' bits' op' ys b hop' hperm h' regs symbols
  rw [hvalue, (value_of_readAddress hop' h').1]
  exact (hperm.map _).sum_eq.symm

/-- Two registers and a number in two orders, the number once in front of the brackets. What is the
base in one address is the index in the other. -/
theorem readAddress_isSum_of_exchanged :
    readAddress none none "[rax + rbx - 0x8]".toList =
        .ok ⟨some .rax, some .rbx, some .one, -8, none, none⟩ ∧
      readAddress none none "-010[+rbx+rax]".toList =
        .ok ⟨some .rbx, some .rax, some .one, -8, none, none⟩ ∧
      (⟨some .rax, some .rbx, some .one, -8, none, none⟩ : Address).value
        (fun r => if r = .rax then 100 else 3) (fun _ => 0) = 95 ∧
      (⟨some .rbx, some .rax, some .one, -8, none, none⟩ : Address).value
        (fun r => if r = .rax then 100 else 3) (fun _ => 0) = 95 := by
  let rax : Addend := ⟨false, .register .rax⟩
  let rbx : Addend := ⟨false, .register .rbx⟩
  let number : Addend := ⟨true, .number 8⟩
  have hrax : Spells "rax".toList rax.summand := .register (by decide +kernel)
  have hrbx : Spells "rbx".toList rbx.summand := .register (by decide +kernel)
  have hdigits : IsDigitRow 16 ['8'] := ⟨by decide, by decide⟩
  have hhex : Spells "0x8".toList number.summand := .number (.hexadecimal hdigits (.inl rfl))
  have hdigits' : IsDigitRow 8 ['1', '0'] := ⟨by decide, by decide⟩
  have hoctal : Spells "010".toList number.summand := .number (.octal hdigits')
  have hop : WritesAddress "[rax + rbx - 0x8]".toList [rax, rbx, number] := by
    refine ⟨[], "rax + rbx - 0x8".toList, [], _, rfl, rfl, .inl .nil, .inr ?_⟩
    exact .cons (s := "+rbx-0x8".toList) hrax (.cons (s := "-0x8".toList) hrbx
      (.cons (s := []) hhex .nil))
  have hop' : WritesAddress "-010[+rbx+rax]".toList [number, rbx, rax] := by
    refine ⟨"-010".toList, "+rbx+rax".toList, [number], _, rfl, rfl, .inl ?_, .inl ?_⟩
    · exact .cons (s := []) hoctal .nil
    · exact .cons (s := "+rax".toList) hrbx (.cons (s := []) hrax .nil)
  have hread : readAddress none none "[rax + rbx - 0x8]".toList =
      .ok ⟨some .rax, some .rbx, some .one, -8, none, none⟩ := by decide +kernel
  have hread' : readAddress none none "-010[+rbx+rax]".toList =
      .ok ⟨some .rbx, some .rax, some .one, -8, none, none⟩ := by decide +kernel
  obtain ⟨hvalue, -, horder⟩ := readAddress_isSum hop hread
  have hsum := hvalue (fun r => if r = .rax then 100 else 3) fun _ => 0
  have hsame := horder none none _ _ _ hop' (List.reverse_perm [number, rbx, rax]) hread'
    (fun r => if r = .rax then 100 else 3) fun _ => 0
  exact ⟨hread, hread', hsum.trans (by decide), hsame.trans (hsum.trans (by decide))⟩

end Source

end AsmBridge
