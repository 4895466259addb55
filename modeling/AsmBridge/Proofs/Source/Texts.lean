import AsmBridge.Proofs.Function.Alone
import AsmBridge.Proofs.Source.Lines
import AsmBridge.Proofs.Text.Cut

/-!
# The texts of a unit

A unit is read line by line, so that no text that a record keeps has a line break in it, and the
name of a label is a symbol (`readUnit_isWritten`). The same holds of the functions of the unit
(`extractFunctions_isWritten`).
-/

namespace AsmBridge

/-- The text is a symbol: it begins like one and goes on like one. -/
def IsSymbol (s : String) : Prop :=
  ∃ c rest, s.toList = c :: rest ∧ Text.isSymbolStart c = true ∧
    ∀ d ∈ rest, Text.isSymbolRest d = true

/-- The texts of a record are such as a line can give: the name of a label is a symbol, and no
statement has a line break in it. -/
def BodyItem.IsWritten : BodyItem → Prop
  | .label l => IsSymbol l.name
  | .directive d => '\n' ∉ d.text.toList
  | .instruction i => '\n' ∉ i.text.toList
  | .epilogue _ => True

namespace Source

lemma mem_of_mem_splitComment {q : QuoteState} {s : List Char} {c : Char}
    (h : c ∈ (splitComment q s).1) : c ∈ s := by
  induction s generalizing q with
  | nil => cases h
  | cons d s ih =>
    rw [splitComment] at h
    split at h
    · cases h
    · rcases List.mem_cons.mp h with rfl | h
      · exact List.mem_cons_self
      · exact List.mem_cons_of_mem _ (ih h)

/-- A label in front of a text is a symbol, and what remains of the text is a part of it. -/
lemma isSymbol_of_label? {s rest : List Char} {name : String} (h : label? s = some (name, rest)) :
    IsSymbol name ∧ ∀ c ∈ rest, c ∈ s := by
  unfold label? at h
  split at h
  · cases h
  · rename_i c more hs
    split at h
    · cases h
    · rename_i hstart
      dsimp only at h
      split at h
      · cases h
      · rename_i r _ hr
        obtain ⟨rfl, rfl⟩ := Prod.mk.inj (Option.some.inj h)
        refine ⟨⟨c, more.takeWhile Text.isSymbolRest, by simp, by simpa using hstart, ?_⟩, ?_⟩
        · intro d hd
          exact List.mem_takeWhile_imp hd
        · intro d hd
          have hbehind : d ∈ Text.trimLeft (more.dropWhile Text.isSymbolRest) := by
            rw [hr]
            exact List.mem_cons_of_mem _ hd
          have hmore : d ∈ more :=
            (List.dropWhile_sublist _).subset (Text.mem_of_mem_trimLeft hbehind)
          refine Text.mem_of_mem_trimLeft ?_
          rw [hs]
          exact List.mem_cons_of_mem _ hmore
      · cases h

/-- The labels of a line are symbols, and what remains of the line is a part of it. -/
lemma isSymbol_of_labels (s : List Char) :
    (∀ name ∈ (labels s).1, IsSymbol name) ∧ ∀ c ∈ (labels s).2, c ∈ s := by
  induction s using labels.induct with
  | case1 s hnone =>
    rw [labels.eq_def]
    split
    · exact ⟨by simp, fun c hc => hc⟩
    · rename_i heq
      rw [hnone] at heq
      cases heq
  | case2 s name rest hsome _ names tail hlabels ih =>
    obtain ⟨hname, hrest⟩ := isSymbol_of_label? hsome
    obtain ⟨hnames, htail⟩ := ih
    rw [labels.eq_def]
    split
    · rename_i heq
      rw [hsome] at heq
      cases heq
    · rename_i name' rest' heq
      obtain ⟨rfl, rfl⟩ := Prod.mk.inj (Option.some.inj (hsome.symm.trans heq))
      exact ⟨List.forall_mem_cons.mpr ⟨hname, hnames⟩,
        fun c hc => hrest c (Text.mem_of_mem_trim (htail c hc))⟩

namespace State

variable {s s' : State}

/-- The labels of a line are recorded with symbols. -/
lemma isWritten_withLabels {source : List Char} {n : ℕ} (hs : ∀ r ∈ s.records, r.item.IsWritten) :
    ∀ r ∈ (s.withLabels source n).records, r.item.IsWritten := by
  refine withLabels_induction (P := fun s => ∀ r ∈ s.records, r.item.IsWritten) ?_ hs
  intro s name hname hs
  exact List.forall_mem_cons.mpr ⟨(isSymbol_of_labels _).1 name hname, hs⟩

/-- A directive is recorded with texts of its statement. -/
lemma isWritten_directive {statement : List Char} {name args : String} {line : Option ℕ}
    {sect : Option String} (hbreak : '\n' ∉ statement)
    (h : splitDirective? statement = some (name, args)) :
    (BodyItem.directive ⟨name, args, line, sect⟩).IsWritten := by
  unfold splitDirective? at h
  dsimp only at h
  split at h
  · cases h
  · obtain ⟨rfl, rfl⟩ := Prod.mk.inj (Option.some.inj h)
    intro hmem
    rw [Directive.text, Text.trimmed, String.toList_ofList] at hmem
    have hmem := Text.mem_of_mem_trim hmem
    simp only [String.toList_append, String.toList_ofList, List.mem_append] at hmem
    rcases hmem with (hmem | hmem) | hmem
    · exact hbreak ((List.takeWhile_sublist _).subset hmem)
    · exact absurd hmem (by decide)
    · exact hbreak ((List.dropWhile_sublist _).subset (Text.mem_of_mem_trim hmem))

/-- An instruction is recorded with the text of its statement. -/
lemma isWritten_instruction {line : Option ℕ} {statement : List Char} {i : Instruction}
    {comment after sect : Option String} (hbreak : '\n' ∉ statement)
    (h : readInstruction line statement = .ok i) :
    BodyItem.IsWritten
      (.instruction { i with comment := comment, after := after, sect := sect }) := by
  obtain ⟨⟨mark, mnemonic, ops⟩, -, h⟩ := bind_eq_ok.mp h
  obtain ⟨read, -, h⟩ := bind_eq_ok.mp h
  rw [← pure_eq_ok.mp h]
  intro hmem
  rcases Text.mem_of_mem_squeezed hmem with hmem | hmem
  · exact hbreak hmem
  · cases hmem

/-- The records of a line have texts of the line. -/
lemma isWritten_line {p : List Char × ℕ} (hbreak : '\n' ∉ p.1) (h : s.line p = .ok s')
    (hs : ∀ r ∈ s.records, r.item.IsWritten) : ∀ r ∈ s'.records, r.item.IsWritten := by
  obtain ⟨source, n⟩ := p
  have hlabels : ∀ r ∈ (s.withLabels source n).records, r.item.IsWritten := isWritten_withLabels hs
  have hstatement : '\n' ∉ statementOf source := fun hmem => hbreak (mem_of_mem_splitComment
    (Text.mem_of_mem_trim ((isSymbol_of_labels _).2 _ hmem)))
  cases line_eq_ok.mp h with
  | labels _ => exact hlabels
  | directive hdirective hswitch _ =>
    refine List.forall_mem_cons.mpr ⟨?_, by rwa [switch_records hswitch]⟩
    exact isWritten_directive hstatement (splitDirective?_of_directive? hdirective)
  | instruction _ _ hread =>
    exact List.forall_mem_cons.mpr ⟨isWritten_instruction hstatement hread, hlabels⟩

end State

end Source

/-- The texts of a unit are such as a line can give. -/
lemma readUnit_isWritten {text : String} {records : List Record}
    (h : Source.readUnit text = .ok records) : ∀ r ∈ records, r.item.IsWritten := by
  obtain ⟨s, hfold, rfl⟩ := map_eq_ok.mp h
  have hall : ∀ r ∈ s.records, r.item.IsWritten := by
    refine foldlM_induction_mem (fun s : Source.State => ∀ r ∈ s.records, r.item.IsWritten) ?_ hfold
      (by simp)
    rintro s ⟨line, n⟩ hline s' hs' hs
    exact Source.State.isWritten_line (Text.mem_splitOn (List.fst_mem_of_mem_zipIdx hline)).1 hs' hs
  exact fun r hr => hall r (List.mem_reverse.mp hr)

/-- The texts of a function are such as a line can give. -/
lemma extractFunctions_isWritten {text : String} {records : List Record}
    {functions : List SourceFunction} (hread : Source.readUnit text = .ok records)
    (h : extractFunctions records = .ok functions) {f : SourceFunction} (hf : f ∈ functions) :
    IsSymbol f.label ∧ ∀ b ∈ f.body, b.IsWritten := by
  have hwritten := readUnit_isWritten hread
  obtain ⟨extents, hdivided, hfs⟩ := exists_extents h
  obtain ⟨e, he, hfe⟩ := exists_of_mem_left hfs hf
  constructor
  · rw [hfe.label]
    exact hwritten _ (hdivided.label_mem he).1
  · intro b hb
    by_cases hepilogue : b.isEpilogue = true
    · cases b with
      | epilogue e => trivial
      | _ => cases hepilogue
    · have hmem : b ∈ f.body.filterMap fun b => if b.isEpilogue then none else some b :=
        List.mem_filterMap.mpr ⟨b, hb, by simp [hepilogue]⟩
      obtain ⟨r, hr, heq⟩ := List.mem_filterMap.mp
        ((hfe.body.filterMap_sublist fun _ => rfl).subset hmem)
      rw [Record.isEpilogue_item, if_neg (by simp)] at heq
      rw [← Option.some.inj heq]
      exact hwritten r ((hdivided.records_sublist he).subset hr)

end AsmBridge
