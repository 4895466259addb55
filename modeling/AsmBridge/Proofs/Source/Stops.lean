import AsmBridge.Proofs.Source.Addresses
import AsmBridge.Proofs.Text.Cut

/-!
# Units that are not read

A unit that cannot be read has a defect, which is reported with its line, but for two exceptions: a
line whose directive is a bare point, and an operand with a number that cannot be read. With these
the unit is given up without a report (`failsWith_readUnit`).
-/

namespace AsmBridge.Source

/-- The text holds a number that cannot be read: one that has digits other than those of its base,
or too many digits. -/
def HoldsUnreadable (s : List Char) : Prop :=
  ∃ n : List Char, n <:+: s ∧ isNumber n = true ∧ number? n = none

/-- The operand, spaces apart, holds a number that cannot be read. -/
def IsUnreadable (op : List Char) : Prop := HoldsUnreadable (op.filter (· != ' '))

/-- The fault is a defect of the text of the line. -/
def IsDefectAt (line : Option ℕ) (e : Fault) : Prop :=
  ∃ d, e = .defect d ∧ d.line = line ∧ d.defect.IsOfText

/-- The fault is a defect of the line, or the condition holds and it is a number that cannot be
read. -/
def IsReadFault (line : Option ℕ) (cond : Prop) (e : Fault) : Prop :=
  IsDefectAt line e ∨ (e = .stop .numberUnreadable ∧ cond)

variable {line : Option ℕ} {s t : List Char} {p q : Prop}

lemma HoldsUnreadable.mono (h : HoldsUnreadable s) (hst : s <:+: t) : HoldsUnreadable t := by
  obtain ⟨n, hn, hnumber⟩ := h
  exact ⟨n, hn.trans hst, hnumber⟩

lemma IsUnreadable.mono (h : IsUnreadable s) (hst : s <:+: t) : IsUnreadable t :=
  HoldsUnreadable.mono h (hst.filter _)

lemma IsReadFault.imp {e : Fault} (h : IsReadFault line p e) (hpq : p → q) :
    IsReadFault line q e := h.imp_right (And.imp_right hpq)

lemma failsWith_defectAt {α : Type} (construct : String) {d : Defect} (hd : d.IsOfText) :
    FailsWith (IsReadFault line p) (.error (defectAt line construct d) : Except Fault α) :=
  failsWith_error (.inl ⟨_, rfl, rfl, hd⟩)

/-! ## Addresses -/

lemma failsWith_number (h : isNumber s = true) :
    FailsWith (IsReadFault line (HoldsUnreadable s)) (number s) := by
  rw [number]
  split
  · exact failsWith_ok _
  · rename_i hnone
    exact failsWith_error (.inr ⟨rfl, s, List.infix_rfl, h, hnone⟩)

lemma failsWith_product {op : String} {a b : List Char} (ha : a <:+: s) (hb : b <:+: s) :
    FailsWith (IsReadFault line (HoldsUnreadable s)) (product (defectAt line op) s a b) := by
  unfold product
  split
  · rename_i hnumber
    exact ((failsWith_number hnumber).imp fun e he => he.imp (·.mono hb)).map _
  · rename_i hnumber _
    exact ((failsWith_number hnumber).imp fun e he => he.imp (·.mono ha)).map _
  · exact failsWith_defectAt _ (.inl rfl)

/-- One term more. -/
lemma failsWith_add (op : String) (sum : Sum) (t : Term) :
    FailsWith (IsReadFault line (HoldsUnreadable t.text)) (sum.add line op t) := by
  unfold Sum.add
  dsimp only
  split
  · rename_i a b hcut
    have htext := Text.eq_append_of_cutAt hcut
    have ha : a <:+: t.text := htext ▸ (List.prefix_append _ _).isInfix
    have hb : b <:+: t.text :=
      htext ▸ ((List.suffix_cons _ _).trans (List.suffix_append _ _)).isInfix
    refine (failsWith_product ha hb).bind fun p _ => ?_
    split
    · exact failsWith_defectAt _ (.inl rfl)
    · exact failsWith_ok _
  · split
    · split_ifs
      · exact failsWith_defectAt _ (.inl rfl)
      · exact failsWith_ok _
      · exact failsWith_ok _
      · exact failsWith_defectAt _ (.inl rfl)
    · split
      · rename_i hnumber
        exact (failsWith_number hnumber).bind fun v _ => failsWith_ok _
      · split_ifs
        · exact failsWith_defectAt _ (.inl rfl)
        · exact failsWith_ok _
        · exact failsWith_defectAt _ (.inl rfl)

/-- The address of a sum. -/
lemma failsWith_address (op : String) (bits : Option ℕ) (sum : Sum) :
    FailsWith (IsReadFault line p) (sum.address line op bits) := by
  rcases address_cases sum op bits with ⟨text, d, hrefused, hd⟩ | ⟨-, scale, -, hok⟩
  · rw [hrefused]
    exact failsWith_defectAt _ hd
  · rw [hok]
    exact failsWith_ok _

/-! ## Terms -/

lemma termText_suffix (run : List Char) : termText run <:+ run := by
  rw [termText]
  split
  · exact List.drop_suffix _ _
  · exact List.dropWhile_suffix _

/-- The text of a run without signs is a piece of it without signs. -/
lemma infix_of_mem_run {negative : Bool} {run : List Char} {t : Term}
    (hrun : ∀ c ∈ run, isSign c = false)
    (h : t ∈ if run.isEmpty then [] else [⟨negative, termText run.reverse⟩]) :
    t.text <:+: run.reverse ∧ ∀ c ∈ t.text, isSign c = false := by
  split_ifs at h
  · cases h
  · obtain rfl := List.mem_singleton.mp h
    have hsuffix := termText_suffix run.reverse
    exact ⟨hsuffix.isInfix, fun c hc => hrun c (List.mem_reverse.mp (hsuffix.subset hc))⟩

/-- A term is a piece of its sum without signs. -/
lemma infix_of_mem_termsFrom {negative : Bool} {run : List Char} {t : Term}
    (hrun : ∀ c ∈ run, isSign c = false) (h : t ∈ termsFrom negative run s) :
    t.text <:+: run.reverse ++ s ∧ ∀ c ∈ t.text, isSign c = false := by
  induction s generalizing negative run with
  | nil =>
    rw [termsFrom] at h
    rw [List.append_nil]
    exact infix_of_mem_run hrun h
  | cons c s ih =>
    rw [termsFrom] at h
    split at h
    · rcases List.mem_append.mp h with h | h
      · obtain ⟨hinside, hsigns⟩ := infix_of_mem_run hrun h
        exact ⟨hinside.trans (List.prefix_append _ _).isInfix, hsigns⟩
      · obtain ⟨hinside, hsigns⟩ := ih (by simp) h
        refine ⟨hinside.trans ?_, hsigns⟩
        exact ((List.suffix_cons c s).trans (List.suffix_append _ _)).isInfix
    · rename_i hc
      obtain ⟨hinside, hsigns⟩ := ih (List.forall_mem_cons.mpr ⟨by simpa using hc, hrun⟩) h
      rw [List.reverse_cons, List.append_assoc, List.singleton_append] at hinside
      exact ⟨hinside, hsigns⟩

/-- A piece without signs of the sum of a memory operand is a piece of the operand. -/
lemma infix_of_addressTerms? {op sum n : List Char} (h : addressTerms? op = some sum)
    (hn : n <:+: sum.filter (· != ' ')) (hsign : ∀ c ∈ n, isSign c = false) :
    n <:+: op.filter (· != ' ') := by
  have hpiece : ∀ {piece}, piece <:+: op → n <:+: piece.filter (· != ' ') →
      n <:+: op.filter (· != ' ') := fun hpiece hn => hn.trans (hpiece.filter _)
  unfold addressTerms? at h
  split at h
  · obtain rfl := Option.some.inj h
    refine hpiece ?_ hn
    exact (List.dropLast_prefix _).isInfix.trans (List.suffix_cons _ _).isInfix
  · split at h
    · rename_i outer rest hcut
      have hop := Text.eq_append_of_cutAt hcut
      have houter : outer <:+: op := hop ▸ (List.prefix_append _ _).isInfix
      have hinner : rest.dropLast <:+: op := by
        refine (List.dropLast_prefix _).isInfix.trans ?_
        exact hop ▸ ((List.suffix_cons _ _).trans (List.suffix_append _ _)).isInfix
      dsimp only at h
      split_ifs at h
      split at h
      · rename_i c outer
        obtain rfl := Option.some.inj h
        have hplus : '+' ∉ n := fun hmem => absurd (hsign _ hmem) (by decide)
        split_ifs at hn with hc
        · have hc' : (c != ' ') = true := by
            rw [bne_iff_ne]
            rintro rfl
            exact absurd hc (by decide)
          have hfilter : (c :: outer).filter (· != ' ') = c :: outer.filter (· != ' ') :=
            List.filter_cons_of_pos hc'
          rw [List.filter_append, hfilter] at hn
          rcases Text.infix_or_infix hn (fun hmem => by simp [hsign c hmem] at hc) with hn | hn
          · exact hpiece hinner hn
          · exact hpiece ((List.suffix_cons _ _).isInfix.trans houter) hn
        · rw [List.filter_append, List.filter_cons_of_pos (by decide)] at hn
          rcases Text.infix_or_infix hn hplus with hn | hn
          · exact hpiece hinner hn
          · exact hpiece houter hn
      · obtain rfl := Option.some.inj h
        exact hpiece hinner hn
    · cases h

/-- An operand in brackets. -/
lemma failsWith_readAddress (bits : Option ℕ) (op : List Char) :
    FailsWith (IsReadFault line (IsUnreadable op)) (readAddress line bits op) := by
  unfold readAddress
  dsimp only
  split
  · exact failsWith_defectAt _ (.inl rfl)
  · rename_i sum hsum
    refine FailsWith.bind (failsWith_foldlM (fun t ht sum' => ?_) _)
      fun s _ => failsWith_address _ _ s
    refine (failsWith_add _ sum' t).imp fun e he => he.imp ?_
    rintro ⟨n, hn, hnumber⟩
    obtain ⟨hinside, hsigns⟩ := infix_of_mem_termsFrom (by simp) ht
    refine ⟨n, ?_, hnumber⟩
    exact infix_of_addressTerms? hsum (hn.trans hinside) fun c hc => hsigns c (hn.subset hc)

/-! ## Operands -/

/-- What follows a word is a piece of the text. -/
lemma infix_of_afterWord? {word : String} (h : afterWord? word s = some t) : t <:+: s := by
  unfold afterWord? at h
  dsimp only at h
  split_ifs at h
  split at h
  · rename_i c rest hdrop
    split_ifs at h
    obtain rfl := Option.some.inj h
    have hrest : rest <:+ s := (List.suffix_cons c rest).trans (hdrop ▸ List.drop_suffix _ _)
    exact ((List.dropWhile_suffix _).trans hrest).isInfix
  · cases h

lemma infix_of_restOfLine? (h : restOfLine? s = some t) : t <:+: s := by
  have hwhole : ∀ {a : List Char}, Text.cutAt '\n' s = (a, none) → a = s := by
    intro a hcut
    rw [Text.cutAt] at hcut
    split at hcut
    · exact (Prod.mk.inj hcut).1.symm
    · cases (Prod.mk.inj hcut).2
  unfold restOfLine? at h
  split at h
  · rename_i a hcut
    obtain rfl := Option.some.inj h
    exact hwhole hcut ▸ List.infix_rfl
  · rename_i a hcut
    obtain rfl := Option.some.inj h
    rw [Text.eq_append_of_cutAt hcut]
    exact (List.prefix_append _ _).isInfix
  · cases h

/-- What stands behind the width of an operand is a piece of the operand. -/
lemma infix_of_width? {bits : ℕ} (h : width? s = some (bits, t)) : t <:+: s := by
  obtain ⟨w, -, h⟩ := List.exists_of_findSome?_eq_some h
  obtain ⟨after, hafter, h⟩ := Option.bind_eq_some_iff.mp h
  obtain ⟨rest, hrest, h⟩ := Option.bind_eq_some_iff.mp h
  obtain ⟨-, rfl⟩ := Prod.mk.inj (Option.some.inj h)
  refine (Text.trim_infix rest).trans ((infix_of_restOfLine? hrest).trans ?_)
  refine List.IsInfix.trans ?_ (infix_of_afterWord? hafter)
  cases hptr : afterWord? "ptr" after with
  | none => exact List.infix_rfl
  | some more => exact infix_of_afterWord? hptr

/-- Digits as they stand in a number behind its sign. -/
def areDigits : List Char → Bool
  | '0' :: 'x' :: rest => Text.someAll (fun c => (Text.digitIn? 16 c).isSome) rest
  | '0' :: 'X' :: rest => Text.someAll (fun c => (Text.digitIn? 16 c).isSome) rest
  | ds => Text.someAll Char.isDigit ds

/-- A line break at the end of a text is left out. -/
lemma exists_back (t : List Char) :
    ∃ back, t = (if t.getLast? == some '\n' then t.dropLast else t) ++ back ∧
      (back = [] ∨ back = ['\n']) := by
  split_ifs with hlast
  · rw [beq_iff_eq, List.getLast?_eq_some_iff] at hlast
    obtain ⟨front, rfl⟩ := hlast
    exact ⟨['\n'], by rw [List.dropLast_concat], .inr rfl⟩
  · exact ⟨[], (List.append_nil t).symm, .inl rfl⟩

/-- There is no space in a number. -/
lemma filter_of_isNumber (h : isNumber s = true) : s.filter (· != ' ') = s := by
  have hall : ∀ {p : Char → Bool} {ds : List Char}, p ' ' = false → Text.someAll p ds = true →
      ' ' ∉ ds := by
    intro p ds hp hds hmem
    exact absurd ((Text.someAll_iff.mp hds).2 _ hmem) (by simp [hp])
  have hdigits : ∀ {body : List Char}, areDigits body = true → ' ' ∉ body := by
    intro body hbody
    unfold areDigits at hbody
    split at hbody
    · simpa using hall (by decide) hbody
    · simpa using hall (by decide) hbody
    · exact hall (by decide) hbody
  have hend : ∀ {body : List Char},
      ' ' ∉ (if body.getLast? == some '\n' then body.dropLast else body) → ' ' ∉ body := by
    intro body hbody
    obtain ⟨back, ht, rfl | rfl⟩ := exists_back body
    all_goals
      rw [ht]
      simpa using hbody
  have hspace : ' ' ∉ s := by
    unfold isNumber at h
    dsimp only at h
    have hbody := hend (hdigits h)
    split at hbody
    · simpa using hbody
    · simpa using hbody
    · exact hbody
  rw [List.filter_eq_self]
  intro c hc
  rw [bne_iff_ne]
  rintro rfl
  exact hspace hc

/-- One operand. -/
lemma failsWith_readOperand (source : List Char) :
    FailsWith (IsReadFault line (IsUnreadable source)) (readOperand line source) := by
  have haddress : ∀ {bits op}, op <:+: source → FailsWith (IsReadFault line (IsUnreadable source))
      ((readAddress line bits op).map Operand.mem) :=
    fun hop => ((failsWith_readAddress _ _).imp fun e he => he.imp (·.mono hop)).map _
  unfold readOperand
  cases hwidth : width? source with
  | some p =>
    simp only [Option.isSome_some, if_true]
    split_ifs
    · exact failsWith_defectAt _ (.inl rfl)
    · exact failsWith_defectAt _ (.inl rfl)
    · exact haddress (infix_of_width? hwidth)
    · exact failsWith_defectAt _ (.inl rfl)
  | none =>
    simp only [Option.isSome_none, Bool.false_eq_true, if_false]
    split_ifs with _ _ _ hnumber
    · exact failsWith_defectAt _ (.inl rfl)
    · exact failsWith_defectAt _ (.inl rfl)
    · exact haddress List.infix_rfl
    all_goals
      split
      · exact failsWith_defectAt _ (.inl rfl)
      · exact failsWith_ok _
    · refine ((failsWith_number hnumber).imp fun e he => he.imp ?_).map _
      rw [IsUnreadable, filter_of_isNumber hnumber]
      exact id
    · exact failsWith_ok _
    · exact failsWith_defectAt _ (.inl rfl)

/-- A problem with an operand is one of its line. -/
lemma line_of_readOperand {source : List Char} {d : Diagnostic}
    (h : readOperand line source = .error (.defect d)) : d.line = line := by
  rcases failsWith_readOperand source _ h with ⟨e, he, hline, -⟩ | ⟨he, -⟩
  · exact Fault.defect.inj he ▸ hline
  · cases he

/-- The operands of a text. -/
lemma failsWith_readOperands (ops : Option (List Char)) :
    FailsWith (IsReadFault line (∃ text ∈ ops, ∃ op ∈ operandsFrom 0 [] text, IsUnreadable op))
      (readOperands line ops) := by
  unfold readOperands
  split
  · exact failsWith_ok _
  · rename_i text
    split_ifs
    · exact failsWith_ok _
    · have hsplit : FailsWith (IsReadFault line (∃ t ∈ some text, ∃ op ∈ operandsFrom 0 [] t,
          IsUnreadable op)) (splitOperands line text) := by
        unfold splitOperands
        dsimp only
        split_ifs
        · exact failsWith_defectAt _ (.inl rfl)
        · exact failsWith_ok _
      refine hsplit.bind fun parts hparts => failsWith_foldlM (fun op hop read => ?_) _
      have hop : op ∈ operandsFrom 0 [] text := by
        unfold splitOperands at hparts
        dsimp only at hparts
        split_ifs at hparts
        exact Except.ok.inj hparts ▸ hop
      unfold Operands.add
      intro e he
      have hread := @failsWith_readOperand line op
      split at he
      · cases he
      · rename_i hd
        split_ifs at he
        obtain rfl := Except.error.inj he
        exact (hread _ hd).imp fun h => ⟨text, rfl, op, hop, h⟩
      · rename_i e' hne he'
        obtain rfl := Except.error.inj he
        exact (hread _ he').imp fun h => ⟨text, rfl, op, hop, h⟩

/-- An operand of the statement holds a number that cannot be read. -/
def HasUnreadable (statement : List Char) : Prop :=
  ∃ line mark mnemonic ops, splitStatement line statement = .ok (mark, mnemonic, some ops) ∧
    ∃ op ∈ operandsFrom 0 [] ops, IsUnreadable op

/-- The instruction of a statement. -/
lemma failsWith_readInstruction (s : List Char) :
    FailsWith (IsReadFault line (HasUnreadable s)) (readInstruction line s) := by
  have hsplit : FailsWith (IsReadFault line (HasUnreadable s)) (splitStatement line s) := by
    unfold splitStatement
    dsimp only
    split
    · exact failsWith_defectAt _ (.inl rfl)
    · split
      · split
        · exact failsWith_defectAt _ (.inl rfl)
        · exact failsWith_ok _
      · exact failsWith_ok _
  refine hsplit.bind fun p hp => ?_
  obtain ⟨mark, mnemonic, ops⟩ := p
  refine FailsWith.bind ((failsWith_readOperands ops).imp fun e he => he.imp ?_)
    fun read _ => failsWith_ok _
  rintro ⟨text, rfl, hops⟩
  exact ⟨line, mark, mnemonic, text, hp, hops⟩

/-! ## Lines -/

/-- Why a line is given up. -/
inductive StopsAt (source : List Char) : Stop → Prop
  /-- Its directive is a bare point. -/
  | nameless {rest : List Char} (hstatement : statementOf source = '.' :: rest)
    (hrest : ∀ c ∈ rest.head?, Text.isBlank c = true) : StopsAt source .directiveNameless
  /-- It has an operand with a number that cannot be read. -/
  | unreadable (h : HasUnreadable (statementOf source)) : StopsAt source .numberUnreadable

/-- The fault is a defect, or the line is given up with it. -/
def IsLineFault (source : List Char) (e : Fault) : Prop :=
  (∃ d, e = .defect d) ∨ ∃ s, e = .stop s ∧ StopsAt source s

lemma failsWith_sectionName {P : Fault → Prop} (hP : ∀ d, P (.defect d)) (d : Directive) :
    FailsWith P (sectionName d) := by
  unfold sectionName
  split
  · exact failsWith_error (hP _)
  · dsimp only
    split
    · exact failsWith_ok _
    · exact failsWith_ok _

namespace State

/-- One line more. -/
lemma failsWith_line (s : State) (p : List Char × ℕ) :
    FailsWith (IsLineFault p.1) (s.line p) := by
  have hdefect : ∀ d, IsLineFault p.1 (.defect d) := fun d => .inl ⟨d, rfl⟩
  have hswitch : ∀ (s : State) (d : Directive) (source : String),
      FailsWith (IsLineFault p.1) (s.switch d source) := by
    intro s d source
    unfold switch
    split_ifs
    · exact failsWith_ok _
    · exact (failsWith_sectionName hdefect d).map _
    · exact (failsWith_sectionName hdefect d).map _
    · split
      · exact failsWith_ok _
      · exact failsWith_error (hdefect _)
    · split
      · exact failsWith_ok _
      · exact failsWith_ok _
    · exact failsWith_ok _
  unfold line
  dsimp only
  split
  · exact failsWith_ok _
  · rename_i rest hstatement
    unfold directive
    split
    · rename_i hsplit
      refine failsWith_error (.inr ⟨_, rfl, .nameless hstatement ?_⟩)
      unfold splitDirective? at hsplit
      dsimp only at hsplit
      split_ifs at hsplit with hlength
      rw [hstatement, List.takeWhile_cons_of_pos (by decide), List.length_cons] at hlength
      intro c hc
      obtain ⟨more, rfl⟩ := List.head?_eq_some_iff.mp hc
      by_contra hblank
      rw [List.takeWhile_cons_of_pos (by simpa using hblank), List.length_cons] at hlength
      omega
    · refine (hswitch _ _ _).bind fun s' _ => ?_
      dsimp only
      split
      · exact failsWith_error (hdefect _)
      · exact failsWith_ok _
  · refine FailsWith.bind ((failsWith_readInstruction _).imp ?_) fun i _ => failsWith_ok _
    rintro e (⟨d, rfl, -⟩ | ⟨rfl, h⟩)
    · exact hdefect d
    · exact .inr ⟨_, rfl, .unreadable h⟩

end State

/-- A unit that cannot be read has a defect, or one of its lines is given up. -/
lemma failsWith_readUnit (text : String) :
    FailsWith (fun e => (∃ d, e = .defect d) ∨
      ∃ source ∈ text.toList.splitOn '\n', ∃ s, e = .stop s ∧ StopsAt source s)
      (readUnit text) := by
  rw [readUnit, Text.chars_eq_toList]
  refine FailsWith.map (failsWith_foldlM (fun p hp s => ?_) _) _
  refine (State.failsWith_line s p).imp fun e he => he.imp_right fun hstop => ?_
  exact ⟨p.1, (List.mem_zipIdx hp).2.2 ▸ List.getElem_mem _, hstop⟩

end AsmBridge.Source
