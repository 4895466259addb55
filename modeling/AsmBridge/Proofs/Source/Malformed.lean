import AsmBridge.Proofs.Source.Hints
import AsmBridge.Proofs.Source.Terms

/-!
# Malformed memory operands

A memory operand is a sum in brackets, with another sum in front of them or without one. Reading
takes signs for what divides an operand, and so passes over three kinds of slips: nothing but blanks
in the brackets, a sign that no term follows, and blanks within a term. Everything else that is not
of this form is refused (`readOperand_isMemory`).
-/

namespace AsmBridge.Source

/-- The pieces of a text between its signs. -/
def parts (s : List Char) : List (List Char) := s.splitOnP isSign

/-- The text without its blanks. -/
def withoutBlanks (s : List Char) : List Char := s.filter fun c => !Text.isBlank c

/-- The text is a term. -/
def IsTerm (t : List Char) : Prop := ∃ x, Spells t x

/-- The text is a sum: terms with one sign between two of them and perhaps a sign in front, and
blanks around the terms. -/
def IsSum (s : List Char) : Prop :=
  ∃ first rest, parts s = first :: rest ∧
    (IsTerm (Text.trim first) ∨ (Text.trim first = [] ∧ rest ≠ [])) ∧
    ∀ p ∈ rest, IsTerm (Text.trim p)

/-- The text is a sum in brackets with a sum in front of them, or with nothing there. -/
def IsMemoryOperand (op : List Char) : Prop :=
  ∃ outer inner, op = outer ++ '[' :: (inner ++ [']']) ∧ (Text.trim outer = [] ∨ IsSum outer) ∧
    IsSum inner

/-- What is wrong with a memory operand that is read all the same. -/
inductive IsSlip (outer inner : List Char) : Prop
  /-- The brackets hold nothing. -/
  | empty (h : Text.trim inner = [])
  /-- No term follows a sign. -/
  | dangling {p : List Char} (hp : p ∈ (parts outer).tail ++ (parts inner).tail)
    (h : Text.trim p = [])
  /-- Blanks stand within a term. -/
  | broken {p : List Char} {c : Char} (hp : p ∈ parts outer ++ parts inner) (hc : c ∈ Text.trim p)
    (h : Text.isBlank c = true)

variable {line : Option ℕ} {c : Char} {s t p : List Char}

/-! ## Pieces -/

/-- A text is without signs, or a sign stands behind a piece without signs. -/
lemma sign_induction {P : List Char → Prop} (hpiece : ∀ p, (∀ c ∈ p, isSign c = false) → P p)
    (hsign : ∀ p c s, (∀ c ∈ p, isSign c = false) → isSign c = true → P s → P (p ++ c :: s))
    (s : List Char) : P s := by
  have hall : ∀ p, (∀ c ∈ p, isSign c = false) → P (p ++ s) := by
    induction s with
    | nil => exact fun p hp => (List.append_nil p).symm ▸ hpiece p hp
    | cons c s ih =>
      intro p hp
      cases hc : isSign c with
      | true => exact hsign p c s hp hc (ih [] (by simp))
      | false =>
        have hlonger := ih (p ++ [c]) (by simpa [or_imp, forall_and, hc] using hp)
        rwa [List.append_assoc, List.singleton_append] at hlonger
  exact hall [] (by simp)

lemma parts_of_piece (hp : ∀ c ∈ p, isSign c = false) : parts p = [p] :=
  List.splitOnP_eq_singleton fun c hc => by simpa using hp c hc

lemma parts_append (hc : isSign c = true) (s t : List Char) :
    parts (s ++ c :: t) = parts s ++ parts t := List.splitOnP_append_cons s t hc

/-- A character of a text is a sign or stands in a piece of it. -/
lemma mem_parts (hc : c ∈ s) : isSign c = true ∨ ∃ p ∈ parts s, c ∈ p := by
  induction s using sign_induction with
  | hpiece p hp => exact .inr ⟨p, by simp [parts_of_piece hp], hc⟩
  | hsign p d s hp hd ih =>
    rw [parts_append hd, parts_of_piece hp]
    rcases List.mem_append.mp hc with hc | hc
    · exact .inr ⟨p, by simp, hc⟩
    · rcases List.mem_cons.mp hc with rfl | hc
      · exact .inl hd
      · obtain hsign | ⟨q, hq, hcq⟩ := ih hc
        · exact .inl hsign
        · exact .inr ⟨q, List.mem_append_right _ hq, hcq⟩

/-! ## Terms of the pieces -/

/-- The texts of the terms do not depend on the sign in front of them. -/
lemma map_text_termsFrom (negative negative' : Bool) (run s : List Char) :
    (termsFrom negative run s).map (·.text) = (termsFrom negative' run s).map (·.text) := by
  induction s generalizing run negative negative' with
  | nil =>
    simp only [termsFrom]
    split_ifs <;> rfl
  | cons c s ih =>
    simp only [termsFrom]
    cases isSign c with
    | true =>
      simp only [if_true, List.map_append]
      split_ifs <;> rfl
    | false => exact ih negative negative' (c :: run)

lemma map_text_terms_sign (hc : isSign c = true) (s : List Char) :
    (terms (c :: s)).map (·.text) = (terms s).map (·.text) := by
  have hread := termsFrom_sign hc false [] [] (s.filter (· != ' '))
  rw [List.nil_append, termsFrom, List.isEmpty_nil, if_pos rfl, List.nil_append] at hread
  rw [terms, filter_sign hc, hread, terms]
  exact map_text_termsFrom _ _ _ _

/-- A piece in which something other than spaces stands is read as a term. -/
lemma termText_mem_terms (hp : p ∈ parts s) (hne : p.filter (· != ' ') ≠ []) :
    termText (p.filter (· != ' ')) ∈ (terms s).map (·.text) := by
  have hpiece : (∀ c ∈ p, isSign c = false) →
      termText (p.filter (· != ' ')) ∈ (terms p).map (·.text) := by
    intro hplain
    have hread := termsFrom_append (fun c hc => hplain c (List.mem_of_mem_filter hc)) false []
      ([] : List Char) (t := p.filter (· != ' '))
    rw [List.append_nil, List.append_nil, termsFrom, List.reverse_reverse,
      if_neg (by simpa using hne)] at hread
    rw [terms, hread]
    exact List.mem_singleton_self _
  induction s using sign_induction with
  | hpiece q hq =>
    rw [parts_of_piece hq, List.mem_singleton] at hp
    subst hp
    exact hpiece hq
  | hsign q d s hq hd ih =>
    rw [parts_append hd, parts_of_piece hq, List.singleton_append, List.mem_cons] at hp
    rw [terms_append hd, List.map_append, List.mem_append, map_text_terms_sign hd]
    rcases hp with rfl | hp
    · exact .inl (hpiece hq)
    · exact .inr (ih hp)

/-! ## Accepted terms -/

lemma withoutBlanks_eq_self (h : ∀ c ∈ s, Text.isBlank c = false) : withoutBlanks s = s :=
  List.filter_eq_self.mpr fun c hc => by simp [h c hc]

lemma withoutBlanks_append (s t : List Char) :
    withoutBlanks (s ++ t) = withoutBlanks s ++ withoutBlanks t := List.filter_append ..

/-- A number that is read is a numeral, blanks apart. -/
lemma exists_isNumeral_withoutBlanks (hnumber : isNumber t = true)
    (hsign : ∀ c ∈ t, isSign c = false) {v : ℤ} (h : number t = .ok v) :
    ∃ n, IsNumeral (withoutBlanks t) n := by
  obtain ⟨ds, n, hds, ht⟩ : ∃ ds n, IsNumeral ds n ∧ (t = ds ∨ t = ds ++ ['\n']) := by
    unfold number at h
    split at h
    · rename_i w hw
      exact exists_isNumeral hnumber hsign hw
    · cases h
  have hself := withoutBlanks_eq_self fun c hc => isBlank_of_isAlphanum (hds.isAlphanum c hc)
  refine ⟨n, ?_⟩
  obtain rfl | rfl := ht
  · rwa [hself]
  · rw [withoutBlanks_append, hself]
    exact (List.append_nil ds).symm ▸ hds

/-- A text that is taken for a symbol is a term, blanks apart. -/
lemma isTerm_of_isSymbol (h : isSymbol t = true) : IsTerm (withoutBlanks t) := by
  obtain ⟨back, ht, hback⟩ := exists_back t
  unfold isSymbol at h
  generalize (if t.getLast? == some '\n' then t.dropLast else t) = body at h ht
  subst ht
  have hback : withoutBlanks back = [] := by
    obtain rfl | rfl := hback <;> rfl
  have hbody : IsSymbol (String.ofList body) := by
    dsimp only at h
    split at h
    · rename_i c rest
      rw [Bool.and_eq_true, List.all_eq_true] at h
      exact ⟨c, rest, String.toList_ofList, h⟩
    · cases h
  have hself : withoutBlanks body = body := by
    obtain ⟨c, rest, hlist, hstart, hrest⟩ := hbody
    rw [String.toList_ofList] at hlist
    refine withoutBlanks_eq_self fun d hd => (plain_of_isTermChar ?_).1
    rw [hlist] at hd
    rcases List.mem_cons.mp hd with rfl | hd
    · simp [isTermChar, isSymbolRest_of_start hstart]
    · simp [isTermChar, hrest d hd]
  rw [withoutBlanks_append, hself, hback, List.append_nil]
  cases hregister : register? body with
  | some r => exact ⟨_, .register hregister⟩
  | none =>
    have hterm : Spells (String.ofList body).toList (.symbol (String.ofList body)) :=
      .symbol hbody (by rwa [String.toList_ofList])
    rw [String.toList_ofList] at hterm
    exact ⟨_, hterm⟩

/-- A product that is read is one, blanks apart. -/
lemma isTerm_of_product {fail : Defect → Fault} {a b : List Char} {q : Register × ℤ}
    (hsign : ∀ c ∈ a ++ '*' :: b, isSign c = false) (h : product fail t a b = .ok q) :
    IsTerm (withoutBlanks (a ++ '*' :: b)) := by
  have hstar : withoutBlanks ('*' :: b) = '*' :: withoutBlanks b := rfl
  have hname : ∀ {s r}, register? s = some r → withoutBlanks s = s := fun h =>
    withoutBlanks_eq_self fun c hc => isBlank_of_isAlphanum ((isAlphanum_of_register? h).2 c hc)
  have ha : ∀ c ∈ a, isSign c = false := fun c hc => hsign c (by simp [hc])
  have hb : ∀ c ∈ b, isSign c = false := fun c hc => hsign c (by simp [hc])
  rw [withoutBlanks_append, hstar]
  unfold product at h
  split at h
  · rename_i r hr hnumber
    obtain ⟨v, hv, -⟩ := map_eq_ok.mp h
    obtain ⟨n, hn⟩ := exists_isNumeral_withoutBlanks hnumber hb hv
    rw [hname hr]
    exact ⟨_, .scaledRight hr hn⟩
  · rename_i r hr hnumber _
    obtain ⟨v, hv, -⟩ := map_eq_ok.mp h
    obtain ⟨n, hn⟩ := exists_isNumeral_withoutBlanks hnumber ha hv
    rw [hname hr]
    exact ⟨_, .scaledLeft hn hr⟩
  · cases h

/-- What is read as a term is one, blanks apart. -/
lemma isTerm_of_add {op : String} {sum sum' : Sum} {y : Term}
    (hsign : ∀ c ∈ y.text, isSign c = false) (h : sum.add line op y = .ok sum') :
    IsTerm (withoutBlanks y.text) := by
  unfold Sum.add at h
  dsimp only at h
  split at h
  · rename_i a b hcut
    obtain ⟨q, hq, -⟩ := bind_eq_ok.mp h
    have htext := Text.eq_append_of_cutAt hcut
    rw [htext] at hsign ⊢
    exact isTerm_of_product hsign hq
  · split at h
    · rename_i r hr
      rw [withoutBlanks_eq_self fun c hc =>
        isBlank_of_isAlphanum ((isAlphanum_of_register? hr).2 c hc)]
      exact ⟨_, .register hr⟩
    · split at h
      · rename_i hnumber
        obtain ⟨v, hv, -⟩ := bind_eq_ok.mp h
        obtain ⟨n, hn⟩ := exists_isNumeral_withoutBlanks hnumber hsign hv
        exact ⟨_, .number hn⟩
      · split at h
        · rename_i hsymbol
          exact isTerm_of_isSymbol hsymbol
        · cases h

/-! ## Accepted operands -/

lemma withoutBlanks_trimLeft (s : List Char) :
    withoutBlanks (Text.trimLeft s) = withoutBlanks s := by
  have hfront : withoutBlanks (s.takeWhile Text.isBlank) = [] :=
    List.filter_eq_nil_iff.mpr fun c hc => by simp [List.mem_takeWhile_imp hc]
  have hsplit : s.takeWhile Text.isBlank ++ Text.trimLeft s = s := List.takeWhile_append_dropWhile
  rw [← congrArg withoutBlanks hsplit, withoutBlanks_append, hfront, List.nil_append]

/-- The text of a term is what it is read from, blanks apart. -/
lemma withoutBlanks_termText (s : List Char) : withoutBlanks (termText s) = withoutBlanks s := by
  rw [termText]
  split
  · rename_i hnil
    have hall : withoutBlanks s = [] := by rw [← withoutBlanks_trimLeft, hnil]; rfl
    rw [hall, ← List.sublist_nil, ← hall]
    exact (List.drop_sublist _ _).filter _
  · exact withoutBlanks_trimLeft s

lemma withoutBlanks_filter (s : List Char) :
    withoutBlanks (s.filter (· != ' ')) = withoutBlanks s := by
  rw [withoutBlanks, List.filter_filter, withoutBlanks]
  refine List.filter_congr fun c _ => ?_
  cases hc : Text.isBlank c with
  | true => rfl
  | false =>
    have hne : c ≠ ' ' := by
      rintro rfl
      exact absurd hc (by decide)
    simp [hne]

/-- A piece is nothing but spaces, or a term, blanks apart. -/
def IsLoose (p : List Char) : Prop := (∀ c ∈ p, c = ' ') ∨ IsTerm (withoutBlanks p)

/-- The pieces of a text whose terms are all read. -/
lemma isLoose_of_terms (h : ∀ y ∈ terms s, IsTerm (withoutBlanks y.text)) (hp : p ∈ parts s) :
    IsLoose p := by
  by_cases hnil : p.filter (· != ' ') = []
  · exact .inl fun c hc => by simpa using List.filter_eq_nil_iff.mp hnil c hc
  · obtain ⟨y, hy, htext⟩ := List.mem_map.mp (termText_mem_terms hp hnil)
    have hterm := h y hy
    rw [htext, withoutBlanks_termText, withoutBlanks_filter] at hterm
    exact .inr hterm

/-- A memory operand has an opening bracket, the first of which begins the sum. -/
lemma exists_brackets {op sum : List Char} (hlast : op.getLast? = some ']')
    (h : addressTerms? op = some sum) :
    ∃ outer inner, op = outer ++ '[' :: (inner ++ [']']) ∧ '[' ∉ outer := by
  have hmem : '[' ∈ op := by
    by_contra hnone
    unfold addressTerms? at h
    split at h
    · exact hnone List.mem_cons_self
    · rw [Text.cutAt_of_notMem hnone] at h
      cases h
  obtain ⟨outer, rest, rfl, houter⟩ := List.eq_append_cons_of_mem hmem
  have hne : rest ≠ [] := by
    rintro rfl
    rw [List.getLast?_concat] at hlast
    exact absurd (Option.some.inj hlast) (by decide)
  rw [List.getLast?_append_cons, List.getLast?_cons_of_ne_nil hne,
    List.getLast?_eq_some_iff] at hlast
  obtain ⟨inner, rfl⟩ := hlast
  exact ⟨outer, inner, rfl, houter⟩

/-- The width of a memory operand that is read, and its pieces. -/
lemma exists_parts_of_readAddress {bits : Option ℕ} {op : List Char} {a : Address}
    (hlast : op.getLast? = some ']') (h : readAddress line bits op = .ok a) :
    a.bits = bits ∧ ∃ outer inner, op = outer ++ '[' :: (inner ++ [']']) ∧ '[' ∉ outer ∧
      ∀ p ∈ parts outer ++ parts inner, IsLoose p := by
  unfold readAddress at h
  dsimp only at h
  cases hsum : addressTerms? op with
  | none =>
    rw [hsum] at h
    cases h
  | some sum =>
    rw [hsum] at h
    obtain ⟨s, hfold, haddress⟩ := bind_eq_ok.mp h
    obtain ⟨outer, inner, rfl, houter⟩ : ∃ outer inner, op = outer ++ '[' :: (inner ++ [']']) ∧
        '[' ∉ outer := exists_brackets hlast hsum
    have hterms : ∀ y ∈ terms inner ++ terms outer, IsTerm (withoutBlanks y.text) := by
      intro y hy
      rw [← terms_of_addressTerms? houter hsum] at hy
      obtain ⟨s₁, s₂, hadd⟩ := exists_of_foldlM_eq_ok hfold y hy
      exact isTerm_of_add (infix_of_mem_termsFrom (by simp) hy).2 hadd
    refine ⟨(address_eq_ok haddress).1, outer, inner, rfl, houter, fun p hp => ?_⟩
    rcases List.mem_append.mp hp with hp | hp
    · exact isLoose_of_terms (fun y hy => hterms y (List.mem_append_right _ hy)) hp
    · exact isLoose_of_terms (fun y hy => hterms y (List.mem_append_left _ hy)) hp

/-! ## Slips -/

lemma withoutBlanks_trim (s : List Char) : withoutBlanks (Text.trim s) = withoutBlanks s := by
  have hright : ∀ t, withoutBlanks (Text.trimRight t) = withoutBlanks t := by
    intro t
    have hleft := withoutBlanks_trimLeft t.reverse
    rw [withoutBlanks, withoutBlanks, List.filter_reverse, ← List.reverse_eq_iff,
      ← List.filter_reverse] at hleft
    exact hleft
  rw [Text.trim, hright, withoutBlanks_trimLeft]

lemma IsTerm.ne_nil (h : IsTerm t) : t ≠ [] := by
  obtain ⟨x, hx⟩ := h
  exact hx.plain.1

lemma IsTerm.plain (h : IsTerm t) : ∀ c ∈ t, Text.isBlank c = false ∧ c ≠ '[' := by
  obtain ⟨x, hx⟩ := h
  intro c hc
  obtain ⟨hblank, -, hbracket, -⟩ := plain_of_isTermChar (hx.plain.2 c hc)
  exact ⟨hblank, hbracket⟩

/-- A piece with a term is well formed if no blank stands within the term. -/
lemma isTerm_trim (h : IsTerm (withoutBlanks p))
    (hplain : ∀ c ∈ Text.trim p, Text.isBlank c = false) : IsTerm (Text.trim p) := by
  rwa [← withoutBlanks_trim, withoutBlanks_eq_self hplain] at h

lemma parts_of_blank (h : Text.trim s = []) : parts s = [s] := by
  refine parts_of_piece fun c hc => ?_
  by_contra hsign
  have hsigns : ∀ c, isSign c = true → Text.isBlank c = false := by
    intro c hc
    rcases Bool.or_eq_true _ _ |>.mp hc with hc | hc
    all_goals rw [beq_iff_eq.mp hc]; decide
  exact nomatch (Text.trim_eq_nil_iff.mp h c hc).symm.trans (hsigns c (by simpa using hsign))

lemma eq_of_parts (h : parts s = [p]) : p = s := by
  induction s using sign_induction with
  | hpiece q hq =>
    rw [parts_of_piece hq] at h
    exact (List.singleton_inj.mp h).symm
  | hsign q d s hq hd =>
    rw [parts_append hd, parts_of_piece hq] at h
    exact absurd (List.cons.inj h).2 (List.splitOnP_ne_nil _ _)

/-- No sign is dangling and no blank stands within a term. -/
structure IsTidy (s : List Char) : Prop where
  dangling : ∀ p ∈ (parts s).tail, Text.trim p ≠ []
  broken : ∀ p ∈ parts s, ∀ c ∈ Text.trim p, Text.isBlank c = false

lemma isTidy_of_blank (h : Text.trim s = []) : IsTidy s := by
  refine ⟨?_, ?_⟩ <;> rw [parts_of_blank h]
  · exact List.forall_mem_nil _
  · rw [List.forall_mem_singleton, h]
    exact List.forall_mem_nil _

/-- A sum is not blank and has no slip. -/
lemma IsSum.isTidy (h : IsSum s) : Text.trim s ≠ [] ∧ IsTidy s := by
  obtain ⟨first, rest, hparts, hfirst, hrest⟩ := h
  refine ⟨fun hblank => ?_, ?_, ?_⟩
  · obtain ⟨rfl, rfl⟩ := List.cons.inj (hparts.symm.trans (parts_of_blank hblank))
    exact hfirst.elim (fun h => h.ne_nil hblank) fun h => h.2 rfl
  · rw [hparts]
    exact fun p hp => (hrest p hp).ne_nil
  · rw [hparts]
    refine List.forall_mem_cons.mpr ⟨fun c hc => ?_, fun p hp c hc => ((hrest p hp).plain c hc).1⟩
    rcases hfirst with hfirst | ⟨hnil, -⟩
    · exact (hfirst.plain c hc).1
    · exact absurd hc (hnil ▸ List.not_mem_nil)

/-- A text whose pieces are loose is a sum if it is not blank and has no slip. -/
lemma isSum_of_isTidy (hloose : ∀ p ∈ parts s, IsLoose p) (hne : Text.trim s ≠ [])
    (h : IsTidy s) : IsSum s := by
  have hterm : ∀ p ∈ parts s, Text.trim p ≠ [] → IsTerm (Text.trim p) := by
    intro p hp hne
    rcases hloose p hp with hspaces | hterm
    · exact absurd (Text.trim_eq_nil_iff.mpr fun c hc => by rw [hspaces c hc]; rfl) hne
    · exact isTerm_trim hterm (h.broken p hp)
  have htail := h.dangling
  cases hparts : parts s with
  | nil => exact absurd hparts (List.splitOnP_ne_nil isSign s)
  | cons first rest =>
    rw [hparts] at hterm htail
    refine ⟨first, rest, hparts, ?_, fun p hp => ?_⟩
    · by_cases hnil : Text.trim first = []
      · refine .inr ⟨hnil, ?_⟩
        rintro rfl
        exact hne (eq_of_parts hparts ▸ hnil)
      · exact .inl (hterm first List.mem_cons_self hnil)
    · exact hterm p (List.mem_cons_of_mem first hp) (htail p hp)

lemma not_isSlip_iff {outer inner : List Char} :
    ¬ IsSlip outer inner ↔ Text.trim inner ≠ [] ∧ IsTidy outer ∧ IsTidy inner := by
  constructor
  · intro hslip
    have hdangling : ∀ p ∈ (parts outer).tail ++ (parts inner).tail, Text.trim p ≠ [] :=
      fun p hp hnil => hslip (.dangling hp hnil)
    have hbroken : ∀ p ∈ parts outer ++ parts inner, ∀ c ∈ Text.trim p, Text.isBlank c = false :=
      fun p hp c hc => Bool.eq_false_iff.mpr fun hblank => hslip (.broken hp hc hblank)
    rw [List.forall_mem_append] at hdangling hbroken
    exact ⟨fun hnil => hslip (.empty hnil), ⟨hdangling.1, hbroken.1⟩, ⟨hdangling.2, hbroken.2⟩⟩
  · rintro ⟨hne, houter, hinner⟩ (hnil | ⟨hp, hnil⟩ | ⟨hp, hc, hblank⟩)
    · exact hne hnil
    · exact (List.mem_append.mp hp).elim (houter.dangling _ · hnil) (hinner.dangling _ · hnil)
    · have hplain := (List.mem_append.mp hp).elim (houter.broken _ · _ hc) (hinner.broken _ · _ hc)
      exact nomatch hplain.symm.trans hblank

lemma IsSum.bracket_notMem (h : IsSum s) : '[' ∉ s := by
  intro hmem
  obtain hsign | ⟨p, hp, hmem⟩ := mem_parts hmem
  · exact absurd hsign (by decide)
  · have htrim : '[' ∈ Text.trim p := by
      have hplain : '[' ∈ withoutBlanks p := List.mem_filter.mpr ⟨hmem, by decide⟩
      rw [← withoutBlanks_trim] at hplain
      exact List.mem_of_mem_filter hplain
    obtain ⟨first, rest, hparts, hfirst, hrest⟩ := h
    rw [hparts] at hp
    have hterm : IsTerm (Text.trim p) := by
      rcases List.mem_cons.mp hp with rfl | hp
      · exact hfirst.resolve_right fun h => absurd htrim (h.1 ▸ List.not_mem_nil)
      · exact hrest p hp
    exact (hterm.plain _ htrim).2 rfl

/-- The first opening bracket of a memory operand is the one of its form. -/
lemma isMemoryOperand_iff {outer inner : List Char} (houter : '[' ∉ outer) :
    IsMemoryOperand (outer ++ '[' :: (inner ++ [']'])) ↔
      (Text.trim outer = [] ∨ IsSum outer) ∧ IsSum inner := by
  refine ⟨fun ⟨outer', inner', heq, hfront, hsum⟩ => ?_, fun h => ⟨outer, inner, rfl, h⟩⟩
  have houter' : '[' ∉ outer' := by
    rcases hfront with hblank | hfront
    · exact fun hmem => absurd (Text.trim_eq_nil_iff.mp hblank _ hmem) (by decide)
    · exact hfront.bracket_notMem
  have hcut := Text.cutAt_append (t := inner ++ [']']) houter
  rw [heq, Text.cutAt_append houter'] at hcut
  obtain ⟨rfl, hrest⟩ := Prod.mk.inj hcut
  rw [← List.append_cancel_right (Option.some.inj hrest)]
  exact ⟨hfront, hsum⟩

/-- A memory operand of the right form has no slip. -/
lemma IsMemoryOperand.not_isSlip {outer inner : List Char} (houter : '[' ∉ outer)
    (h : IsMemoryOperand (outer ++ '[' :: (inner ++ [']']))) : ¬ IsSlip outer inner := by
  obtain ⟨hfront, hsum⟩ := (isMemoryOperand_iff houter).mp h
  obtain ⟨hne, htidy⟩ := hsum.isTidy
  exact not_isSlip_iff.mpr ⟨hne, hfront.elim isTidy_of_blank fun h => h.isTidy.2, htidy⟩

/-- With loose pieces and without slips an operand is of the right form. -/
lemma isMemoryOperand_of_not_isSlip {outer inner : List Char}
    (hloose : ∀ p ∈ parts outer ++ parts inner, IsLoose p) (h : ¬ IsSlip outer inner) :
    IsMemoryOperand (outer ++ '[' :: (inner ++ [']'])) := by
  obtain ⟨hfront, hback⟩ := List.forall_mem_append.mp hloose
  obtain ⟨hne, houter, hinner⟩ := not_isSlip_iff.mp h
  refine ⟨outer, inner, rfl, ?_, isSum_of_isTidy hback hne hinner⟩
  exact or_iff_not_imp_left.mpr fun hne => isSum_of_isTidy hfront hne houter

/-! ## Reading -/

/-- An operand that ends in a bracket is refused with a defect of its line or holds a number that
cannot be read, or it is an address. Then it is a size hint, if any, with a memory operand behind
it in which every piece between signs is a term, blanks apart, or blank; and it is of the right form
unless its brackets are empty, a sign has no term behind it or a blank stands within a term. -/
theorem readOperand_isMemory {source : List Char} (hlast : source.getLast? = some ']') :
    (∀ e, readOperand line source = .error e →
      IsDefectAt line e ∨ (e = .stop .numberUnreadable ∧ IsUnreadable source)) ∧
    ∀ o, readOperand line source = .ok o →
      ∃ a bits front outer inner, o = .mem a ∧ a.bits = bits ∧ IsFront bits front ∧
        source = front ++ (outer ++ '[' :: (inner ++ [']'])) ∧
        (∀ p ∈ parts outer ++ parts inner, IsLoose p) ∧
        (IsMemoryOperand (outer ++ '[' :: (inner ++ [']'])) ↔ ¬ IsSlip outer inner) := by
  refine ⟨fun e he => failsWith_readOperand source e he, fun o ho => ?_⟩
  obtain ⟨bits, front, op, hfront, rfl, hop, hread⟩ := @exists_front source line hlast
  rw [hread] at ho
  unfold readBracketed at ho
  dsimp only at ho
  split_ifs at ho
  obtain ⟨a, ha, rfl⟩ := map_eq_ok.mp ho
  obtain ⟨hbits, outer, inner, rfl, houter, hloose⟩ := exists_parts_of_readAddress hop ha
  exact ⟨a, bits, front, outer, inner, rfl, hbits, hfront, rfl, hloose,
    fun h => h.not_isSlip houter, isMemoryOperand_of_not_isSlip hloose⟩

theorem readOperand_isMemory_of_hinted :
    readOperand none "QWORD PTR [rbx + 8]".toList =
      .ok (.mem ⟨some .rbx, none, none, 8, some 64, none⟩) ∧
    ∃ front outer inner, IsFront (some 64) front ∧
      "QWORD PTR [rbx + 8]".toList = front ++ (outer ++ '[' :: (inner ++ [']'])) ∧
      (∀ p ∈ parts outer ++ parts inner, IsLoose p) ∧
      (IsMemoryOperand (outer ++ '[' :: (inner ++ [']'])) ↔ ¬ IsSlip outer inner) := by
  have hread : readOperand none "QWORD PTR [rbx + 8]".toList =
      .ok (.mem ⟨some .rbx, none, none, 8, some 64, none⟩) := by decide +kernel
  obtain ⟨a, bits, front, outer, inner, ha, rfl, hfront, htext⟩ :=
    (readOperand_isMemory (by decide +kernel)).2 _ hread
  obtain rfl := Operand.mem.inj ha
  exact ⟨hread, front, outer, inner, hfront, htext⟩

/-- Operands with slips are read, and a number that cannot be read is not reported. -/
theorem not_onlyMemoryOperands :
    (readOperand (some 7) "[ra x]".toList = .ok (.mem ⟨some .rax, none, none, 0, none, none⟩) ∧
      ¬ IsMemoryOperand "[ra x]".toList) ∧
    (readOperand (some 7) "[]".toList = .ok (.mem ⟨none, none, none, 0, none, none⟩) ∧
      ¬ IsMemoryOperand "[]".toList) ∧
    (readOperand (some 7) "[rax+]".toList = .ok (.mem ⟨some .rax, none, none, 0, none, none⟩) ∧
      ¬ IsMemoryOperand "[rax+]".toList) ∧
    (readOperand (some 7) "[rbp++8]".toList = .ok (.mem ⟨some .rbp, none, none, 8, none, none⟩) ∧
      ¬ IsMemoryOperand "[rbp++8]".toList) ∧
    readOperand (some 7) "[rax+09]".toList = .error (.stop .numberUnreadable) := by
  have hslip : ∀ {inner : List Char}, IsSlip [] inner →
      ¬ IsMemoryOperand ([] ++ '[' :: (inner ++ [']'])) :=
    fun hslip h => h.not_isSlip List.not_mem_nil hslip
  have hempty : IsSlip [] [] := .empty rfl
  have hbroken : IsSlip [] "ra x".toList :=
    .broken (p := "ra x".toList) (c := ' ') (by decide) (by decide) rfl
  have hdangling : IsSlip [] "rax+".toList := .dangling (p := []) (by decide) rfl
  have hdoubled : IsSlip [] "rbp++8".toList := .dangling (p := []) (by decide) rfl
  refine ⟨⟨by decide +kernel, hslip hbroken⟩, ⟨by decide +kernel, hslip hempty⟩,
    ⟨by decide +kernel, hslip hdangling⟩, ⟨by decide +kernel, hslip hdoubled⟩, by decide +kernel⟩

end AsmBridge.Source
