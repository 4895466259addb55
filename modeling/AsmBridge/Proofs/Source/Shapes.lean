import AsmBridge.Proofs.Source.Addresses
import AsmBridge.Proofs.Source.Terms

/-!
# The shapes of operands

What is read as an operand is no text with arbitrary parts. An address has a scale exactly if it has
an index, only an address relative to the instruction pointer has a symbol, and such an address has
no index; a symbol begins like one and is no register (`readInstruction_isFormed`). The mnemonic is
lower case, and a word that is a mark stands as a mnemonic only without operands.
-/

namespace AsmBridge

/-- The parts of the address go together as those of one that is read. -/
structure Address.IsFormed (a : Address) : Prop extends a.IsReadable where
  scale : a.scale.isSome = a.index.isSome
  index : a.index.isSome = true → a.base ≠ some .rip ∧ a.index ≠ some .rip
  symbol : ∀ name ∈ a.symbol, a.base = some .rip ∧ IsSymbol name ∧
    Source.register? name.toList = none

/-- The operand is one that can be read. -/
inductive Operand.IsFormed : Operand → Prop
  | reg {r : Register} (hr : r ≠ .rip) : Operand.IsFormed (.reg r)
  | imm (v : ℤ) : Operand.IsFormed (.imm v)
  | sym {name : String} (hname : IsSymbol name) (hregister : Source.register? name.toList = none)
      (hoffset : Source.isOffset name.toList = false) : Operand.IsFormed (.sym name)
  | mem {a : Address} (ha : a.IsFormed) : Operand.IsFormed (.mem a)

/-- The text is a mnemonic: letters and digits in lower case, a letter first. -/
structure IsMnemonic (s : String) : Prop where
  head : ∃ c rest, s.toList = c :: rest ∧ c.isAlpha = true
  chars : ∀ c ∈ s.toList, c.isAlphanum = true ∧ c.toLower = c

/-- The instruction has the parts of one that can be read. A mark stands for a mnemonic only if
nothing follows it. -/
structure Instruction.IsFormed (i : Instruction) : Prop where
  mnemonic : IsMnemonic i.mnemonic
  mark : ∀ m ∈ i.mark, (sourceMark? m).isSome = true
  bare : i.mark = none → (sourceMark? i.mnemonic).isSome = true → i.operands = []
  operands : ∀ o ∈ i.operands, o.IsFormed

namespace Source

variable {line : Option ℕ} {op : String} {s t : List Char}

/-- A symbol on one line is one. -/
lemma isSymbol_iff (h : '\n' ∉ s) : isSymbol s = true ↔ IsSymbol (String.ofList s) := by
  have hlast : (s.getLast? == some '\n') = false := by
    rw [beq_eq_false_iff_ne]
    exact fun hlast => h (List.mem_of_getLast? hlast)
  rw [isSymbol, hlast, IsSymbol, String.toList_ofList]
  cases s with
  | nil => simp
  | cons c rest => simp [and_comm]

/-! ## Addresses -/

/-- The parts of a sum that go together: the scale and the index, and a symbol that is no
register. -/
structure Sum.IsFormed (s : Sum) : Prop where
  scale : s.scale.isSome = s.index.isSome
  symbol : ∀ name ∈ s.symbol, IsSymbol name ∧ register? name.toList = none

variable {sum sum' : Sum}

lemma Sum.IsFormed.add {t : Term} (hsum : sum.IsFormed) (ht : '\n' ∉ t.text)
    (h : sum.add line op t = .ok sum') : sum'.IsFormed := by
  unfold Sum.add at h
  dsimp only at h
  split at h
  · obtain ⟨⟨r, n⟩, -, h⟩ := bind_eq_ok.mp h
    dsimp only at h
    split at h
    · cases h
    · obtain rfl := pure_eq_ok.mp h
      exact ⟨rfl, hsum.symbol⟩
  · split at h
    · split_ifs at h
      · obtain rfl := Except.ok.inj h
        exact ⟨hsum.scale, hsum.symbol⟩
      · obtain rfl := Except.ok.inj h
        exact ⟨rfl, hsum.symbol⟩
    · rename_i hregister
      split at h
      · obtain ⟨v, -, h⟩ := bind_eq_ok.mp h
        obtain rfl := pure_eq_ok.mp h
        exact ⟨hsum.scale, hsum.symbol⟩
      · split_ifs at h with hsymbol
        obtain rfl := Except.ok.inj h
        refine ⟨hsum.scale, ?_⟩
        rintro name ⟨⟩
        exact ⟨(isSymbol_iff ht).mp hsymbol, by rwa [String.toList_ofList]⟩

/-- What a sum that gives an address is not: an absolute symbol, or an index to the instruction
pointer. -/
lemma guards_of_address {bits : Option ℕ} {a : Address} (h : sum.address line op bits = .ok a) :
    (sum.symbol.isSome = true → sum.base = some .rip) ∧
      (sum.index.isSome = true → sum.base ≠ some .rip ∧ sum.index ≠ some .rip) := by
  unfold Sum.address at h
  dsimp only at h
  constructor
  · intro hsymbol
    obtain ⟨name, hname⟩ := Option.isSome_iff_exists.mp hsymbol
    rw [hname] at h
    dsimp only at h
    split at h
    · cases h
    · rename_i hbase
      simpa using hbase
  · intro hindex
    by_contra hrip
    have hguard : (sum.index.isSome && (sum.base == some .rip || sum.index == some .rip)) = true := by
      rw [hindex, Bool.true_and, Bool.or_eq_true, beq_iff_eq, beq_iff_eq]
      tauto
    rw [hguard] at h
    split at h
    · split at h <;> cases h
    · cases h

/-- The address of a sum whose parts go together. -/
lemma Sum.IsFormed.address (hsum : sum.IsFormed) {bits : Option ℕ} {a : Address}
    (hbits : ∀ n ∈ bits, n ∈ widthWords.map (·.2)) (h : sum.address line op bits = .ok a) :
    a.IsFormed := by
  obtain ⟨habsolute, hindexed⟩ := guards_of_address h
  obtain ⟨hwidth, hregisters⟩ := address_eq_ok h
  rcases address_cases sum op bits with ⟨text, d, hrefused, -⟩ | ⟨-, scale, hscale, hok⟩
  · cases hrefused.symm.trans h
  · obtain rfl := Except.ok.inj (hok.symm.trans h)
    have hsame : scale.isSome = sum.index.isSome := by
      rw [← hsum.scale, hscale, Option.isSome_map]
    refine ⟨⟨hbits, hregisters⟩, ?_, hindexed, fun name hname => ⟨?_, hsum.symbol name hname⟩⟩
    · rw [Address.ofParts, ← hsame]
      cases scale <;> rfl
    · exact habsolute (Option.isSome_iff_exists.mpr ⟨name, hname⟩)

/-- What is read of a sum in brackets on one line. -/
lemma readAddress_isFormed {op : List Char} {bits : Option ℕ} {a : Address} (hline : '\n' ∉ op)
    (hbits : ∀ n ∈ bits, n ∈ widthWords.map (·.2)) (h : readAddress line bits op = .ok a) :
    a.IsFormed := by
  unfold readAddress at h
  dsimp only at h
  split at h
  · cases h
  · rename_i sum hsum
    obtain ⟨s, hfold, haddress⟩ := bind_eq_ok.mp h
    have hempty : Sum.IsFormed {} := ⟨rfl, fun name hname => nomatch hname⟩
    refine Sum.IsFormed.address ?_ hbits haddress
    refine foldlM_induction_mem Sum.IsFormed (fun s t ht s' hadd hs => hs.add ?_ hadd) hfold hempty
    intro hmem
    obtain ⟨hinside, hsigns⟩ := infix_of_mem_termsFrom (by simp) ht
    have hpiece := infix_of_addressTerms? hsum hinside hsigns
    exact hline (List.mem_of_mem_filter (hpiece.subset hmem))

/-- What is read of an operand on one line. -/
lemma readOperand_isFormed {o : Operand} (hline : '\n' ∉ s) (h : readOperand line s = .ok o) :
    o.IsFormed := by
  unfold readOperand at h
  dsimp only at h
  cases hwidth : width? s with
  | some p =>
    simp only [hwidth, Option.isSome_some, if_true] at h
    split_ifs at h
    obtain ⟨a, ha, rfl⟩ := map_eq_ok.mp h
    refine .mem (readAddress_isFormed (fun hmem => ?_) ?_ ha)
    · exact hline ((infix_of_width? hwidth).subset hmem)
    · rintro n ⟨⟩
      exact mem_widthWords_of_width? hwidth
  | none =>
    simp only [hwidth, Option.isSome_none, Bool.false_eq_true, if_false] at h
    split at h
    · cases h
    rename_i hoffset
    split at h
    · cases h
    split at h
    · obtain ⟨a, ha, rfl⟩ := map_eq_ok.mp h
      exact .mem (readAddress_isFormed hline (by simp) ha)
    split at h
    · cases h
    · rename_i r hrip hr
      rw [← Except.ok.inj h]
      exact .reg hrip
    · rename_i hregister
      split_ifs at h with hnumber hsymbol
      · obtain ⟨v, -, rfl⟩ := map_eq_ok.mp h
        exact .imm v
      · rw [← Except.ok.inj h]
        exact .sym ((isSymbol_iff hline).mp hsymbol) (by rwa [String.toList_ofList])
          (by rw [String.toList_ofList]; exact Bool.eq_false_iff.mpr hoffset)

/-! ## Instructions -/

lemma toLower_of_isAlphanum {c : Char} (h : c.isAlphanum = true) :
    c.toLower.isAlphanum = true ∧ c.toLower.isAlpha = c.isAlpha ∧ c.toLower.toLower = c.toLower := by
  have hascii : ∀ n < 128, (Char.ofNat n).isAlphanum = true →
      (Char.ofNat n).toLower.isAlphanum = true ∧
        (Char.ofNat n).toLower.isAlpha = (Char.ofNat n).isAlpha ∧
        (Char.ofNat n).toLower.toLower = (Char.ofNat n).toLower := by decide
  have hcode : c.toNat < 128 := by
    simp only [Char.isAlphanum, isAlpha_eq, Bool.or_eq_true] at h
    obtain (h | h) | h := h
    · have hrange := toNat_of_isUpper h
      omega
    · have hrange := toNat_of_isLower h
      omega
    · have hrange := toNat_of_isDigit h
      omega
  have hself := hascii c.toNat hcode
  rw [Char.ofNat_toNat] at hself
  exact hself h

lemma notMem_of_restOfLine? (h : restOfLine? s = some t) : '\n' ∉ t := by
  have hbefore := Text.notMem_cutAt '\n' s
  unfold restOfLine? at h
  split at h
  · rename_i hcut
    rw [hcut] at hbefore
    exact Option.some.inj h ▸ hbefore
  · rename_i hcut
    rw [hcut] at hbefore
    exact Option.some.inj h ▸ hbefore
  · cases h

/-- The mnemonic of a statement, and its operands, which stand on one line. -/
lemma isMnemonic_of_splitMnemonic? {name : String} {ops : Option (List Char)}
    (h : splitMnemonic? s = some (name, ops)) :
    IsMnemonic name ∧ ∀ t ∈ ops, '\n' ∉ t := by
  unfold splitMnemonic? at h
  split at h
  · cases h
  rename_i c rest
  split_ifs at h with halpha
  rw [Bool.not_eq_true', Bool.not_eq_false] at halpha
  have hname : IsMnemonic
      (String.ofList (((c :: rest).takeWhile Char.isAlphanum).map Char.toLower)) := by
    have hhead : c.isAlphanum = true := by rw [Char.isAlphanum, halpha, Bool.true_or]
    constructor
    · refine ⟨c.toLower, (rest.takeWhile Char.isAlphanum).map Char.toLower, ?_, ?_⟩
      · rw [String.toList_ofList, List.takeWhile_cons_of_pos hhead, List.map_cons]
      · rw [(toLower_of_isAlphanum hhead).2.1, halpha]
    · intro d hd
      rw [String.toList_ofList] at hd
      obtain ⟨e, he, rfl⟩ := List.mem_map.mp hd
      obtain ⟨halphanum, -, hlower⟩ := toLower_of_isAlphanum (List.mem_takeWhile_imp he)
      exact ⟨halphanum, hlower⟩
  dsimp only at h
  split at h
  · obtain ⟨rfl, rfl⟩ := Prod.mk.inj (Option.some.inj h)
    exact ⟨hname, fun t ht => nomatch ht⟩
  · rename_i d more hdrop
    split_ifs at h
    obtain ⟨u, hu, h⟩ := Option.map_eq_some_iff.mp h
    obtain ⟨rfl, rfl⟩ := Prod.mk.inj h
    refine ⟨hname, ?_⟩
    rintro t ⟨⟩
    exact notMem_of_restOfLine? hu

/-- The characters of the operands are characters of their text. -/
lemma mem_of_mem_operandsFrom {depth : ℤ} {run : List Char} {c : Char}
    (ht : t ∈ operandsFrom depth run s) (hc : c ∈ t) : c ∈ run ∨ c ∈ s := by
  have hrun : ∀ {run : List Char}, c ∈ Text.trim run.reverse → c ∈ run := fun h =>
    List.mem_reverse.mp (Text.mem_of_mem_trim h)
  induction s generalizing depth run with
  | nil =>
    rw [operandsFrom, List.mem_singleton] at ht
    exact .inl (hrun (ht ▸ hc))
  | cons d s ih =>
    rw [operandsFrom] at ht
    generalize (if d == '[' then depth + 1 else if d == ']' then depth - 1 else depth) = next at ht
    split_ifs at ht
    · rcases List.mem_cons.mp ht with rfl | ht
      · exact .inl (hrun hc)
      · exact .inr (List.mem_cons_of_mem d ((ih ht).resolve_left List.not_mem_nil))
    · rcases ih ht with h | h
      · rcases List.mem_cons.mp h with rfl | h
        · exact .inr List.mem_cons_self
        · exact .inl h
      · exact .inr (List.mem_cons_of_mem d h)

/-- What is read of the operands on one line. -/
lemma readOperands_isFormed {ops : Option (List Char)} {read : Operands}
    (hline : ∀ t ∈ ops, '\n' ∉ t) (h : readOperands line ops = .ok read) :
    ∀ o ∈ read.operands, o.IsFormed := by
  unfold readOperands at h
  split at h
  · rw [← Except.ok.inj h]
    exact fun o ho => nomatch ho
  · rename_i t
    split_ifs at h
    · rw [← Except.ok.inj h]
      exact fun o ho => nomatch ho
    · obtain ⟨texts, htexts, hfold⟩ := bind_eq_ok.mp h
      unfold splitOperands at htexts
      dsimp only at htexts
      split_ifs at htexts
      obtain rfl := Except.ok.inj htexts
      refine foldlM_induction_mem (fun s : Operands => ∀ o ∈ s.operands, o.IsFormed) ?_ hfold
        (fun o ho => nomatch ho)
      intro s op hop s' hadd hs
      have hbreak : '\n' ∉ op := fun hmem =>
        (mem_of_mem_operandsFrom hop hmem).elim List.not_mem_nil (hline t rfl)
      unfold Operands.add at hadd
      split at hadd
      · rename_i o ho
        rw [← Except.ok.inj hadd]
        exact List.forall_mem_append.mpr
          ⟨hs, List.forall_mem_singleton.mpr (readOperand_isFormed hbreak ho)⟩
      · split_ifs at hadd
        rw [← Except.ok.inj hadd]
        exact hs
      · cases hadd

/-- Without a text no operands are read. -/
lemma operands_of_bare {ops : Option (List Char)} {read : Operands}
    (hbare : ∀ c t, ops = some (c :: t) → False) (h : readOperands line ops = .ok read) :
    read.operands = [] := by
  cases ops with
  | none => rw [← Except.ok.inj h]
  | some t =>
    cases t with
    | nil => rw [← Except.ok.inj h]
    | cons c t => exact (hbare c t rfl).elim

/-- What is read of a statement. -/
theorem readInstruction_isFormed {i : Instruction} (h : readInstruction line s = .ok i) :
    i.IsFormed := by
  obtain ⟨⟨mark, mnemonic, ops⟩, hsplit, h⟩ := bind_eq_ok.mp h
  obtain ⟨read, hread, h⟩ := bind_eq_ok.mp h
  obtain rfl := pure_eq_ok.mp h
  unfold splitStatement at hsplit
  dsimp only at hsplit
  split at hsplit
  · cases hsplit
  rename_i name more hname
  obtain ⟨hmnemonic, hline⟩ := isMnemonic_of_splitMnemonic? hname
  split at hsplit
  · rename_i byte c rest hmark
    split at hsplit
    · cases hsplit
    rename_i next tail hnext
    obtain ⟨rfl, hrest⟩ := Prod.mk.inj (Except.ok.inj hsplit)
    obtain ⟨rfl, rfl⟩ := Prod.mk.inj hrest
    obtain ⟨hmnemonic, hline⟩ := isMnemonic_of_splitMnemonic? hnext
    refine ⟨hmnemonic, ?_, (nomatch ·), readOperands_isFormed hline hread⟩
    rintro m ⟨⟩
    rw [hmark]
    rfl
  · rename_i hbare
    obtain ⟨rfl, hsame⟩ := Prod.mk.inj (Except.ok.inj hsplit)
    obtain ⟨rfl, rfl⟩ := Prod.mk.inj hsame
    refine ⟨hmnemonic, (by simp), fun _ hmark => ?_, readOperands_isFormed hline hread⟩
    obtain ⟨byte, hbyte⟩ := Option.isSome_iff_exists.mp hmark
    exact operands_of_bare (hbare byte · · hbyte) hread

end Source

end AsmBridge
