import AsmBridge.Data.Index
import AsmBridge.Proofs.Source.Placement

/-!
# What lines read

From the state before it a line reads the section in effect, those on the stack and the one that
`.previous` goes back to, and nothing else: states that agree in these go on alike with lines that
differ in their comments only (`Agrees.exists_lines`).
-/

namespace AsmBridge.Source

namespace State

variable {s s' t : State} {source source' : List Char} {n m : ℕ}

/-! ## States that agree -/

/-- The section that `.previous` goes back to; before any switch it is the one in effect. -/
def back (s : State) : String := s.previous.getD s.sect

lemma switch_previous (s : State) {d : Directive} (hd : d.name = ".previous") (text : String) :
    s.switch d text =
      .ok { s with sect := s.back, previous := s.previous.map fun _ => s.sect } := by
  obtain ⟨_, _, previous, _, _⟩ := s
  unfold State.switch
  rw [hd]
  cases previous <;> rfl

/-- The states are in the same section, and go back to the same ones. -/
structure Agrees (s t : State) : Prop where
  sect : t.sect = s.sect
  stack : t.stack = s.stack
  back : t.back = s.back

/-- A switch of sections, from states that agree. -/
lemma Agrees.exists_switch (h : s.Agrees t) {d d' : Directive} {text text' : String}
    (hname : d'.name = d.name) (hargs : d'.args = d.args) (hs : s.switch d text = .ok s') :
    ∃ t', t.switch d' text' = .ok t' ∧ s'.Agrees t' := by
  have henter : ∀ sect, (s.enter sect).Agrees (t.enter sect) :=
    fun sect => ⟨rfl, h.stack, h.sect⟩
  by_cases hprevious : d.name = ".previous"
  · have hback : ∀ u : State,
        State.back { u with sect := u.back, previous := u.previous.map fun _ => u.sect } =
          u.sect := by
      rintro ⟨_, _, _ | _, _, _⟩ <;> rfl
    rw [switch_previous s hprevious] at hs
    rw [switch_previous t (hname.trans hprevious), ← Except.ok.inj hs]
    exact ⟨_, rfl, h.back, h.stack, by rw [hback, hback, h.sect]⟩
  · unfold State.switch at hs ⊢
    rw [hname]
    split_ifs at hs ⊢ with _ _ _ _ hname'
    · rw [← Except.ok.inj hs]
      exact ⟨_, rfl, henter d.name⟩
    · obtain ⟨sect, hsect, rfl⟩ := map_eq_ok.mp hs
      exact ⟨_, map_eq_ok.mpr ⟨sect, sectionName_congr hargs hsect, rfl⟩, henter sect⟩
    · obtain ⟨sect, hsect, rfl⟩ := map_eq_ok.mp hs
      refine ⟨_, map_eq_ok.mpr ⟨sect, sectionName_congr hargs hsect, rfl⟩, rfl, ?_, h.sect⟩
      dsimp only
      rw [h.sect, h.stack]
    · rw [h.stack]
      split at hs
      · rw [← Except.ok.inj hs]
        exact ⟨_, rfl, rfl, rfl, h.sect⟩
      · cases hs
    · exact absurd (beq_iff_eq.mp hname') hprevious
    · rw [← Except.ok.inj hs]
      exact ⟨t, rfl, h⟩

/-- The labels of a line, in states that agree. -/
lemma Agrees.withLabels (h : s.Agrees t) (hbare : bare source' = bare source) :
    (s.withLabels source n).Agrees (t.withLabels source' m) ∧
      ∃ new new', (s.withLabels source n).records = new ++ s.records ∧
        (t.withLabels source' m).records = new' ++ t.records ∧
        new'.map (·.unplaced) = new.map (·.unplaced) := by
  have hlabels : labelsOf source' = labelsOf source := by rw [labelsOf, labelsOf, hbare]
  rw [withLabels_eq, withLabels_eq, hlabels]
  refine ⟨⟨h.sect, h.stack, h.back⟩, _, _, rfl, rfl, ?_⟩
  simp [Record.unplaced, Label.unplaced, h.sect, Function.comp_def]

/-- A line, read from a state that agrees with one from which it is read, perhaps with another
comment. -/
lemma Agrees.exists_line (h : s.Agrees t) (hbare : bare source' = bare source)
    (hs : s.line (source, n) = .ok s') (m : ℕ) :
    ∃ t', t.line (source', m) = .ok t' ∧ s'.Agrees t' ∧
      ∃ new new', s'.records = new ++ s.records ∧ t'.records = new' ++ t.records ∧
        new'.map (·.unplaced) = new.map (·.unplaced) := by
  obtain ⟨hagrees, new, new', hnew, hnew', hmap⟩ := h.withLabels (n := n) (m := m) hbare
  have hstatement : statementOf source' = statementOf source :=
    congrArg (fun s => (labels s).2) hbare
  have hdirective : directive? source' = directive? source := by
    unfold directive?
    rw [hstatement]
  cases line_eq_ok.mp hs with
  | labels hnil =>
    exact ⟨_, line_eq_ok.mpr (.labels (hstatement.trans hnil)), hagrees, new, new', hnew, hnew',
      hmap⟩
  | @directive name args s₁ hname hswitch hknown =>
    obtain ⟨t₁, hswitch', h₁⟩ : ∃ t₁, (t.withLabels source' m).switch
        { name := name, args := args, line := some m, sect := some (t.withLabels source' m).sect }
        (String.ofList (Text.trim source')) = .ok t₁ ∧ s₁.Agrees t₁ :=
      hagrees.exists_switch (by rfl) (by rfl) hswitch
    have hrecords := (switch_records hswitch).trans hnew
    have hrecords' := (switch_records hswitch').trans hnew'
    have hreads : t.Reads source' m _ :=
      .directive (hdirective.trans hname) hswitch' (by rwa [h₁.sect])
    refine ⟨_, line_eq_ok.mpr hreads, ⟨h₁.sect, h₁.stack, h₁.back⟩, _ :: new, _ :: new',
      congrArg (List.cons _) hrecords, congrArg (List.cons _) hrecords', ?_⟩
    rw [List.map_cons, List.map_cons, hmap]
    refine congrArg (· :: _) ?_
    simp [Record.unplaced, Directive.unplaced, h₁.sect]
  | @instruction i hnil hdot hread =>
    obtain ⟨j, hj, hij⟩ := (mirrors_readInstruction (some n) _).exists_ok_of_ok
      (mirrors_readInstruction (some m) _) hread
    rw [← hstatement] at hnil hdot hj
    refine ⟨_, line_eq_ok.mpr (.instruction hnil hdot hj),
      ⟨hagrees.sect, hagrees.stack, hagrees.back⟩, _ :: new, _ :: new',
      congrArg (List.cons _) hnew, congrArg (List.cons _) hnew', ?_⟩
    rw [List.map_cons, List.map_cons, hmap]
    refine congrArg (· :: _) ?_
    change Record.instruction { j.unplaced with sect := some (t.withLabels source' m).sect } =
      .instruction { i.unplaced with sect := some (s.withLabels source n).sect }
    rw [hij, hagrees.sect]

/-- The lines of the second row hold the statements of the first one, with other comments perhaps
and with lines without a statement between them. -/
inductive IsRespaced : List (List Char) → List (List Char) → Prop
  | nil : IsRespaced [] []
  | line {source source' : List Char} {rest rest' : List (List Char)}
      (hbare : bare source' = bare source) (hrest : IsRespaced rest rest') :
      IsRespaced (source :: rest) (source' :: rest')
  | blank {source' : List Char} {rest rest' : List (List Char)} (hbare : bare source' = [])
      (hrest : IsRespaced rest rest') : IsRespaced rest (source' :: rest')

lemma IsRespaced.refl (sources : List (List Char)) : IsRespaced sources sources := by
  induction sources with
  | nil => exact .nil
  | cons source rest ih => exact .line rfl ih

/-- A line without a statement changes nothing. -/
lemma line_of_bare (hbare : bare source = []) (s : State) (n : ℕ) : s.line (source, n) = .ok s := by
  have hstatement : statementOf source = [] := (congrArg (fun s => (labels s).2) hbare).trans
    (congrArg Prod.snd labels_nil)
  have hnone : labelsOf source = [] := (congrArg (fun s => (labels s).1) hbare).trans
    (congrArg Prod.fst labels_nil)
  have hreads : s.Reads source n (s.withLabels source n) := .labels hstatement
  rw [withLabels, hnone] at hreads
  exact line_eq_ok.mpr hreads

/-- Lines, read from a state that agrees with one from which they are read, perhaps with other
comments and lines without a statement between them. -/
lemma Agrees.exists_lines {sources sources' : List (List Char)}
    (hsources : IsRespaced sources sources') (h : s.Agrees t) {n : ℕ}
    (hs : (sources.zipIdx n).foldlM State.line s = .ok s') (m : ℕ) :
    ∃ t', (sources'.zipIdx m).foldlM State.line t = .ok t' ∧ s'.Agrees t' ∧
      ∃ new new', s'.records = new ++ s.records ∧ t'.records = new' ++ t.records ∧
        new'.map (·.unplaced) = new.map (·.unplaced) := by
  induction hsources generalizing s t n m with
  | nil =>
    obtain rfl := pure_eq_ok.mp hs
    exact ⟨t, rfl, h, [], [], rfl, rfl, rfl⟩
  | line hbare _ ih =>
    rw [List.zipIdx_cons] at hs
    obtain ⟨s₁, hs₁, hs⟩ := foldlM_cons_eq_ok.mp hs
    obtain ⟨t₁, ht₁, h₁, new₁, new₁', hnew₁, hnew₁', hmap₁⟩ := h.exists_line hbare hs₁ m
    obtain ⟨t', ht', h', new, new', hnew, hnew', hmap⟩ := ih h₁ hs (m + 1)
    refine ⟨t', foldlM_cons_eq_ok.mpr ⟨t₁, ht₁, ht'⟩, h', new ++ new₁, new' ++ new₁', ?_, ?_, ?_⟩
    · rw [hnew, hnew₁, List.append_assoc]
    · rw [hnew', hnew₁', List.append_assoc]
    · rw [List.map_append, List.map_append, hmap, hmap₁]
  | blank hbare _ ih =>
    obtain ⟨t', ht', h'⟩ := ih h hs (m + 1)
    exact ⟨t', foldlM_cons_eq_ok.mpr ⟨t, line_of_bare hbare t m, ht'⟩, h'⟩

end State

end AsmBridge.Source
