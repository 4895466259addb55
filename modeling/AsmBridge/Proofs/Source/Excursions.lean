import AsmBridge.Proofs.Source.Readings

/-!
# Excursions to other sections

A section can be pushed and popped again around lines that switch no section or do so in properly
nested pairs (`IsBalanced`). Behind such an excursion the section and the stack are those of before.
What has changed is the section that `.previous` goes back to: it is the one that was pushed. So the
lines behind an excursion are in the sections in which they are without it, unless their first
switch is a `.previous` that then goes elsewhere (`excursion_unnoticed_iff`).
-/

namespace AsmBridge

/-- The record without its place and its section. -/
def Record.unsited (r : Record) : Record :=
  match r.unplaced with
  | .label l => .label { l with sect := none }
  | .directive d => .directive { d with sect := none }
  | .instruction i => .instruction { i with sect := none }

lemma Record.sect_unplaced (r : Record) : r.unplaced.sect = r.sect := by
  cases r <;> rfl

namespace Source

/-- The section switch of a line by its name, if the line has one. -/
def switch? (source : List Char) : Option String :=
  ((directive? source).map (·.1)).filter (DataIndex.sectionSwitches.contains ·)

/-- The line pushes the section. -/
def Pushes (sect : String) (source : List Char) : Prop :=
  ∃ args, directive? source = some (".pushsection", args) ∧
    sectionName { name := ".pushsection", args := args } = .ok sect

/-- Lines that switch no section, and properly nested pairs of a push and a pop around such
lines. -/
inductive IsBalanced : List (List Char) → Prop
  | nil : IsBalanced []
  | line {source : List Char} {rest : List (List Char)} (hswitch : switch? source = none)
      (hrest : IsBalanced rest) : IsBalanced (source :: rest)
  | pair {push pop : List Char} {inner rest : List (List Char)}
      (hpush : switch? push = some ".pushsection") (hinner : IsBalanced inner)
      (hpop : switch? pop = some ".popsection") (hrest : IsBalanced rest) :
      IsBalanced (push :: (inner ++ pop :: rest))

/-- The lines push the section and, behind balanced lines, pop it again. -/
def IsExcursion (sect : String) (lines : List (List Char)) : Prop :=
  ∃ push inner pop, lines = push :: (inner ++ [pop]) ∧ Pushes sect push ∧ IsBalanced inner ∧
    switch? pop = some ".popsection"

/-- The first switch of sections in a row of lines, by its name. -/
def firstSwitch? (lines : List (List Char)) : Option String := lines.findSome? switch?

/-- What a line records, places and sections apart. -/
def contents (source : List Char) : List Record :=
  ((labelsOf source).map fun name => .label { name := name }) ++
    match directive? source with
    | some (name, args) => [.directive { name := name, args := args }]
    | none =>
      if (statementOf source).isEmpty then []
      else (readInstruction none (statementOf source)).toOption.toList.map fun i =>
        (Record.instruction i).unsited

namespace State

variable {s s' t t' : State} {source : List Char} {sources : List (List Char)} {n m : ℕ}

/-! ## What is recorded -/

/-- A line records its contents, whatever the state is. -/
lemma exists_new_of_line (h : s.line (source, n) = .ok s') :
    ∃ new, s'.records = new ++ s.records ∧ new.map (·.unsited) = (contents source).reverse := by
  have hlabels : ((labelsOf source).reverse.map fun name =>
        Record.label { name := name, line := some n, sect := some s.sect }).map (·.unsited) =
      ((labelsOf source).map fun name => .label { name := name }).reverse := by
    simp [Record.unsited, Record.unplaced, Label.unplaced, Function.comp_def]
  have hrecords : (s.withLabels source n).records = _ ++ s.records :=
    congrArg State.records (s.withLabels_eq source n)
  cases line_eq_ok.mp h with
  | labels hnil =>
    refine ⟨_, hrecords, ?_⟩
    have hdirective : directive? source = none := directive?_eq_none (by simp [hnil])
    rw [hlabels, contents, hdirective, hnil, List.reverse_append]
    rfl
  | directive hdirective hswitch _ =>
    refine ⟨_ :: _, congrArg (List.cons _) ((switch_records hswitch).trans hrecords), ?_⟩
    rw [List.map_cons, hlabels, contents, hdirective, List.reverse_append]
    rfl
  | @instruction i hnil hdot hread =>
    refine ⟨_ :: _, congrArg (List.cons _) hrecords, ?_⟩
    have hdirective : directive? source = none := directive?_eq_none hdot
    have hread' := (mirrors_readInstruction (some n) _).eq_ok hread
    have hempty : (statementOf source).isEmpty = false := List.isEmpty_eq_false_iff.mpr hnil
    rw [List.map_cons, hlabels, contents, hdirective, hempty, hread', List.reverse_append]
    refine congrArg (· :: _) ?_
    cases i with
    | mk _ _ _ _ _ _ _ _ problem => cases problem <;> rfl

/-- Lines record their contents. -/
lemma exists_new_of_lines (h : (sources.zipIdx n).foldlM State.line s = .ok s') :
    ∃ new, s'.records = new ++ s.records ∧
      new.map (·.unsited) = (sources.flatMap contents).reverse := by
  induction sources generalizing s n with
  | nil =>
    obtain rfl := pure_eq_ok.mp h
    exact ⟨[], rfl, rfl⟩
  | cons source sources ih =>
    rw [List.zipIdx_cons] at h
    obtain ⟨s₁, hs₁, h⟩ := foldlM_cons_eq_ok.mp h
    obtain ⟨new₁, hnew₁, hmap₁⟩ := exists_new_of_line hs₁
    obtain ⟨new, hnew, hmap⟩ := ih h
    refine ⟨new ++ new₁, by rw [hnew, hnew₁, List.append_assoc], ?_⟩
    rw [List.map_append, hmap, hmap₁, List.flatMap_cons, List.reverse_append]

/-! ## Sections -/

/-- A directive that is no switch leaves the state alone. -/
lemma switch_eq_self {d : Directive} (hd : DataIndex.sectionSwitches.contains d.name = false)
    (s : State) (text : String) : s.switch d text = .ok s := by
  simp only [DataIndex.sectionSwitches, List.contains_cons, List.contains_nil, Bool.or_false,
    Bool.or_eq_false_iff, beq_eq_false_iff_ne] at hd
  obtain ⟨hsection, htext, hdata, hbss, hprevious, hpush, hpop⟩ := hd
  simp [State.switch, hsection, htext, hdata, hbss, hprevious, hpush, hpop]

/-- A line without a switch leaves the sections alone. -/
lemma places_of_line (h : s.line (source, n) = .ok s') (hswitch : switch? source = none) :
    s'.sect = s.sect ∧ s'.stack = s.stack ∧ s'.previous = s.previous := by
  cases line_eq_ok.mp h with
  | labels => simp
  | @directive name args s₁ hdirective hs₁ _ =>
    have hname : DataIndex.sectionSwitches.contains name = false := by
      simpa [switch?, hdirective] using hswitch
    rw [switch_eq_self hname] at hs₁
    rw [← Except.ok.inj hs₁]
    simp
  | instruction => simp

lemma exists_directive_of_switch? {name : String} (h : switch? source = some name) :
    DataIndex.sectionSwitches.contains name = true ∧
      ∃ args, directive? source = some (name, args) := by
  obtain ⟨hname, hcontains⟩ := Option.filter_eq_some_iff.mp h
  obtain ⟨⟨_, args⟩, hdirective, rfl⟩ := Option.map_eq_some_iff.mp hname
  exact ⟨hcontains, args, hdirective⟩

/-- A line with a switch goes where that leads. -/
lemma exists_of_switch? (h : s.line (source, n) = .ok s') {name : String}
    (hswitch : switch? source = some name) :
    ∃ d text s₁, directive? source = some (name, d.args) ∧ d.name = name ∧
      (s.withLabels source n).switch d text = .ok s₁ ∧
      s'.sect = s₁.sect ∧ s'.stack = s₁.stack ∧ s'.previous = s₁.previous := by
  obtain ⟨-, args, hdirective⟩ := exists_directive_of_switch? hswitch
  obtain ⟨s₁, hs₁, -, rfl⟩ := exists_switch_of_line h hdirective
  exact ⟨_, _, s₁, hdirective, rfl, hs₁, rfl, rfl, rfl⟩

/-- The last record of a line with a switch is in the section to which that leads. -/
lemma head?_of_switch? (h : s.line (source, n) = .ok s') {name : String}
    (hswitch : switch? source = some name) {new : List Record}
    (hnew : s'.records = new ++ s.records) : (new.map (·.sect)).head? = some (some s'.sect) := by
  obtain ⟨-, args, hdirective⟩ := exists_directive_of_switch? hswitch
  obtain ⟨s₁, hs₁, -, rfl⟩ := exists_switch_of_line h hdirective
  have hrecords : s₁.records = _ ++ s.records := (switch_records hs₁).trans
    (congrArg State.records (s.withLabels_eq source n))
  rw [hrecords, ← List.cons_append] at hnew
  rw [← List.append_cancel_right hnew]
  rfl

/-- A line that pushes a section. -/
lemma line_of_pushsection (h : s.line (source, n) = .ok s')
    (hpush : switch? source = some ".pushsection") :
    s'.stack = s.sect :: s.stack ∧ s'.previous = some s.sect ∧
      ∀ sect, Pushes sect source → s'.sect = sect := by
  obtain ⟨d, text, s₁, hdirective, hname, hs₁, hsect, hstack, hprevious⟩ :=
    exists_of_switch? h hpush
  unfold State.switch at hs₁
  rw [hname] at hs₁
  obtain ⟨sect, hd, rfl⟩ : ∃ sect, sectionName d = .ok sect ∧
      { (s.withLabels source n).enter sect with
        stack := (s.withLabels source n).sect :: (s.withLabels source n).stack } = s₁ :=
    map_eq_ok.mp hs₁
  refine ⟨by simp [hstack], by simp [hprevious, State.enter], ?_⟩
  rintro sect' ⟨args', hdirective', hsect'⟩
  obtain ⟨-, hargs⟩ := Prod.mk.inj (Option.some.inj (hdirective.symm.trans hdirective'))
  rw [hsect]
  exact Except.ok.inj (hd.symm.trans (sectionName_congr hargs hsect'))

/-- A line that pops a section. -/
lemma line_of_popsection (h : s.line (source, n) = .ok s')
    (hpop : switch? source = some ".popsection") :
    s.stack = s'.sect :: s'.stack ∧ s'.previous = some s.sect := by
  obtain ⟨d, text, s₁, -, hname, hs₁, hsect, hstack, hprevious⟩ := exists_of_switch? h hpop
  unfold State.switch at hs₁
  rw [hname, withLabels_stack] at hs₁
  rw [hsect, hstack, hprevious]
  cases hs : s.stack with
  | nil =>
    rw [hs] at hs₁
    have hrefused : Except.error (defectAt d.line text .popWithoutPush) = Except.ok s₁ := hs₁
    cases hrefused
  | cons sect rest =>
    rw [hs] at hs₁
    have hpopped : .ok { (s.withLabels source n).enter sect with stack := rest } =
        Except.ok s₁ := hs₁
    rw [← Except.ok.inj hpopped]
    simp [State.enter]

/-- A line that goes back to the previous section. -/
lemma line_of_previous (h : s.line (source, n) = .ok s')
    (hprevious : switch? source = some ".previous") : s'.sect = s.back := by
  obtain ⟨d, text, s₁, -, hname, hs₁, hsect, -⟩ := exists_of_switch? h hprevious
  rw [switch_previous _ hname] at hs₁
  rw [hsect, ← Except.ok.inj hs₁]
  simp [State.back]

/-! ## Excursions -/

/-- Balanced lines leave the section and the stack as they are. -/
lemma places_of_isBalanced (hsources : IsBalanced sources)
    (h : (sources.zipIdx n).foldlM State.line s = .ok s') :
    s'.sect = s.sect ∧ s'.stack = s.stack := by
  induction hsources generalizing s s' n with
  | nil =>
    obtain rfl := pure_eq_ok.mp h
    exact ⟨rfl, rfl⟩
  | line hswitch _ ih =>
    rw [List.zipIdx_cons] at h
    obtain ⟨s₁, hs₁, h⟩ := foldlM_cons_eq_ok.mp h
    obtain ⟨hsect, hstack, -⟩ := places_of_line hs₁ hswitch
    obtain ⟨hsect', hstack'⟩ := ih h
    exact ⟨hsect'.trans hsect, hstack'.trans hstack⟩
  | pair hpush _ hpop _ ihinner ih =>
    rw [List.zipIdx_cons, List.zipIdx_append, List.zipIdx_cons] at h
    obtain ⟨s₁, hs₁, h⟩ := foldlM_cons_eq_ok.mp h
    obtain ⟨s₂, hs₂, h⟩ := foldlM_append_eq_ok.mp h
    obtain ⟨s₃, hs₃, h⟩ := foldlM_cons_eq_ok.mp h
    obtain ⟨hstack₁, -, -⟩ := line_of_pushsection hs₁ hpush
    obtain ⟨-, hstack₂⟩ := ihinner hs₂
    obtain ⟨hstack₃, -⟩ := line_of_popsection hs₃ hpop
    obtain ⟨hsect, hstack⟩ := ih h
    obtain ⟨hsect₃, hstack₃⟩ :=
      List.cons.inj (hstack₃.symm.trans (hstack₂.trans hstack₁))
    exact ⟨hsect.trans hsect₃, hstack.trans hstack₃⟩

/-- Behind an excursion the section and the stack are those of before, and `.previous` goes back to
the section that was pushed. -/
lemma places_of_isExcursion {sect : String} (hsources : IsExcursion sect sources)
    (h : (sources.zipIdx n).foldlM State.line s = .ok s') :
    s'.sect = s.sect ∧ s'.stack = s.stack ∧ s'.back = sect := by
  obtain ⟨push, inner, pop, rfl, hpush, hinner, hpop⟩ := hsources
  have hpush' : switch? push = some ".pushsection" := by
    obtain ⟨args, hdirective, -⟩ := hpush
    rw [switch?, hdirective]
    rfl
  rw [List.zipIdx_cons, List.zipIdx_append] at h
  obtain ⟨s₁, hs₁, h⟩ := foldlM_cons_eq_ok.mp h
  obtain ⟨s₂, hs₂, h⟩ := foldlM_append_eq_ok.mp h
  obtain ⟨s₃, hs₃, h⟩ := foldlM_cons_eq_ok.mp h
  obtain rfl := pure_eq_ok.mp h
  obtain ⟨hstack₁, -, hsect₁⟩ := line_of_pushsection hs₁ hpush'
  obtain ⟨hsect₂, hstack₂⟩ := places_of_isBalanced hinner hs₂
  obtain ⟨hstack₃, hprevious⟩ := line_of_popsection hs₃ hpop
  obtain ⟨hsect₃, hstack₃⟩ := List.cons.inj (hstack₃.symm.trans (hstack₂.trans hstack₁))
  refine ⟨hsect₃, hstack₃, ?_⟩
  rw [State.back, hprevious, hsect₂, hsect₁ sect hpush]
  rfl

/-! ## Lines behind an excursion -/

/-- A switch that does not go back forgets the previous section. -/
lemma switch_with_previous {d : Directive} (hd : DataIndex.sectionSwitches.contains d.name = true)
    (hprevious : d.name ≠ ".previous") (s : State) (previous : Option String) (text : String) :
    { s with previous := previous }.switch d text = s.switch d text := by
  unfold State.switch
  split_ifs with htext hsection hpush hpop
  · rfl
  · rfl
  · rfl
  · rfl
  · rename_i h
    exact absurd (beq_iff_eq.mp h) hprevious
  · simp [DataIndex.sectionSwitches] at hd htext hsection hpush hpop
    tauto

lemma withLabels_with_previous (s : State) (previous : Option String) (source : List Char)
    (n : ℕ) : { s with previous := previous }.withLabels source n =
      { s.withLabels source n with previous := previous } := by
  rw [withLabels_eq, withLabels_eq]

/-- A line whose switch does not go back forgets the previous section. -/
lemma line_with_previous {name : String} (hswitch : switch? source = some name)
    (hname : name ≠ ".previous") (h : s.line (source, n) = .ok s') (previous : Option String) :
    { s with previous := previous }.line (source, n) = .ok s' := by
  obtain ⟨hcontains, args, hdirective⟩ := exists_directive_of_switch? hswitch
  obtain ⟨s₁, hs₁, hknown, rfl⟩ := exists_switch_of_line h hdirective
  refine line_eq_ok.mpr (.directive hdirective ?_ hknown)
  rw [withLabels_with_previous]
  exact (switch_with_previous hcontains hname (s.withLabels source n) previous _).trans hs₁

/-- A line without a switch is read with every previous section. -/
lemma line_of_no_switch (hswitch : switch? source = none) (h : s.line (source, n) = .ok s')
    (previous : Option String) :
    { s with previous := previous }.line (source, n) = .ok { s' with previous := previous } := by
  have hlabels := withLabels_with_previous s previous source n
  cases line_eq_ok.mp h with
  | labels hnil => exact line_eq_ok.mpr (hlabels ▸ .labels hnil)
  | @directive name args s₁ hdirective hs₁ hknown =>
    have hname : DataIndex.sectionSwitches.contains name = false := by
      simpa [switch?, hdirective] using hswitch
    rw [switch_eq_self hname] at hs₁
    obtain rfl := Except.ok.inj hs₁
    have hreads := Reads.directive hdirective (switch_eq_self hname _ _) (by rwa [hlabels])
    rw [hlabels] at hreads
    exact line_eq_ok.mpr hreads
  | instruction hnil hdot hread =>
    have hreads := Reads.instruction (s := { s with previous := previous }) hnil hdot hread
    rw [hlabels] at hreads
    exact line_eq_ok.mpr hreads

/-- Lines of which the first switch does not go back are read with every previous section. -/
lemma exists_lines_with_previous (hfirst : firstSwitch? sources ≠ some ".previous")
    (h : (sources.zipIdx n).foldlM State.line s = .ok s') (previous : Option String) :
    ∃ t, (sources.zipIdx n).foldlM State.line { s with previous := previous } = .ok t ∧
      t.records = s'.records := by
  induction sources generalizing s n with
  | nil =>
    obtain rfl := pure_eq_ok.mp h
    exact ⟨_, rfl, rfl⟩
  | cons source sources ih =>
    rw [List.zipIdx_cons] at h ⊢
    obtain ⟨s₁, hs₁, h⟩ := foldlM_cons_eq_ok.mp h
    rw [firstSwitch?, List.findSome?_cons] at hfirst
    cases hswitch : switch? source with
    | none =>
      rw [hswitch] at hfirst
      obtain ⟨t, ht, hrecords⟩ := ih hfirst h
      exact ⟨t, foldlM_cons_eq_ok.mpr ⟨_, line_of_no_switch hswitch hs₁ previous, ht⟩, hrecords⟩
    | some name =>
      rw [hswitch] at hfirst
      have hname : name ≠ ".previous" := fun heq => hfirst (congrArg some heq)
      exact ⟨s', foldlM_cons_eq_ok.mpr ⟨s₁, line_with_previous hswitch hname hs₁ previous, h⟩, rfl⟩

/-- Lines of which the first switch goes back are in the same sections, read from two states in one
section, only if that leads to the same section. -/
lemma back_of_sects (hfirst : firstSwitch? sources = some ".previous") (hsect : t.sect = s.sect)
    (hs : (sources.zipIdx n).foldlM State.line s = .ok s')
    (ht : (sources.zipIdx m).foldlM State.line t = .ok t') {new new' : List Record}
    (hnew : s'.records = new ++ s.records) (hnew' : t'.records = new' ++ t.records)
    (hsects : new'.map (·.sect) = new.map (·.sect)) : t.back = s.back := by
  induction sources generalizing s t n m new new' with
  | nil => cases hfirst
  | cons source sources ih =>
    rw [List.zipIdx_cons] at hs ht
    obtain ⟨s₁, hs₁, hs⟩ := foldlM_cons_eq_ok.mp hs
    obtain ⟨t₁, ht₁, ht⟩ := foldlM_cons_eq_ok.mp ht
    obtain ⟨line, hline, hcontents⟩ := exists_new_of_line hs₁
    obtain ⟨line', hline', hcontents'⟩ := exists_new_of_line ht₁
    obtain ⟨rest, hrest, -⟩ := exists_new_of_lines hs
    obtain ⟨rest', hrest', -⟩ := exists_new_of_lines ht
    obtain rfl : new = rest ++ line := by
      rw [hrest, hline, ← List.append_assoc] at hnew
      exact (List.append_cancel_right hnew).symm
    obtain rfl : new' = rest' ++ line' := by
      rw [hrest', hline', ← List.append_assoc] at hnew'
      exact (List.append_cancel_right hnew').symm
    have hlength : (line'.map (·.sect)).length = (line.map (·.sect)).length := by
      have h := congrArg List.length (hcontents'.trans hcontents.symm)
      simpa using h
    rw [List.map_append, List.map_append] at hsects
    obtain ⟨hsects, hsect₁⟩ := List.append_inj' hsects hlength
    rw [firstSwitch?, List.findSome?_cons] at hfirst
    cases hswitch : switch? source with
    | none =>
      rw [hswitch] at hfirst
      obtain ⟨hs₂, -, hs₃⟩ := places_of_line hs₁ hswitch
      obtain ⟨ht₂, -, ht₃⟩ := places_of_line ht₁ hswitch
      have hback := ih hfirst (by rw [ht₂, hs₂, hsect]) hs ht hrest hrest' hsects
      rwa [State.back, State.back, ht₂, ht₃, hs₂, hs₃] at hback
    | some name =>
      rw [hswitch] at hfirst
      obtain rfl := Option.some.inj hfirst
      rw [← line_of_previous hs₁ hswitch, ← line_of_previous ht₁ hswitch]
      have hhead := head?_of_switch? ht₁ hswitch hline'
      rw [hsect₁, head?_of_switch? hs₁ hswitch hline] at hhead
      exact (Option.some.inj (Option.some.inj hhead)).symm

/-- Lines are in the same sections, read from two states that agree. -/
lemma Agrees.sects_eq (h : s.Agrees t) (hs : (sources.zipIdx n).foldlM State.line s = .ok s')
    (ht : (sources.zipIdx m).foldlM State.line t = .ok t') {new new' : List Record}
    (hnew : s'.records = new ++ s.records) (hnew' : t'.records = new' ++ t.records) :
    new'.map (·.sect) = new.map (·.sect) := by
  obtain ⟨t₁, ht₁, -, new₁, new₁', hnew₁, hnew₁', hmap⟩ :=
    h.exists_lines (.refl sources) hs m
  obtain rfl := Except.ok.inj (ht.symm.trans ht₁)
  obtain rfl := List.append_cancel_right (hnew.symm.trans hnew₁)
  obtain rfl := List.append_cancel_right (hnew'.symm.trans hnew₁')
  have hsects := congrArg (List.map (·.sect)) hmap
  simpa [Function.comp_def, Record.sect_unplaced] using hsects

/-- When lines are in the same sections, read from two states with one section and one stack. -/
lemma sects_eq_iff (hsect : t.sect = s.sect) (hstack : t.stack = s.stack)
    (hs : (sources.zipIdx n).foldlM State.line s = .ok s')
    (ht : (sources.zipIdx m).foldlM State.line t = .ok t') {new new' : List Record}
    (hnew : s'.records = new ++ s.records) (hnew' : t'.records = new' ++ t.records) :
    new'.map (·.sect) = new.map (·.sect) ↔
      (firstSwitch? sources = some ".previous" → t.back = s.back) := by
  constructor
  · intro hsects hfirst
    exact back_of_sects hfirst hsect hs ht hnew hnew' hsects
  · intro hback
    by_cases hfirst : firstSwitch? sources = some ".previous"
    · have hagrees : s.Agrees t := ⟨hsect, hstack, hback hfirst⟩
      exact hagrees.sects_eq hs ht hnew hnew'
    · obtain ⟨t₁, ht₁, hrecords⟩ := exists_lines_with_previous hfirst ht s.previous
      have hagrees : s.Agrees { t with previous := s.previous } := by
        refine ⟨hsect, hstack, ?_⟩
        rw [State.back, State.back, hsect]
      exact hagrees.sects_eq hs ht₁ hnew (hrecords.trans hnew')

end State

/-- A unit with an excursion to another section between two lines, and the unit without it. What is
recorded differs only in the records of the excursion; and the lines behind it are in the sections
in which they are without it exactly if their first switch of sections is no `.previous`, or the
section that was pushed is the one to which that goes back anyway. -/
theorem excursion_unnoticed_iff {text text' : String} {front lines behind : List (List Char)}
    {sect : String} {rs rs' : List Record} (htext : text.toList.splitOn '\n' = front ++ behind)
    (htext' : text'.toList.splitOn '\n' = front ++ (lines ++ behind))
    (hlines : IsExcursion sect lines) (h : readUnit text = .ok rs)
    (h' : readUnit text' = .ok rs') :
    ∃ s before inside after after',
      (front.zipIdx 1).foldlM State.line {} = .ok s ∧ s.records = before.reverse ∧
      rs = before ++ after ∧ rs' = before ++ (inside ++ after') ∧
      inside.map (·.unsited) = lines.flatMap contents ∧
      after.map (·.unsited) = behind.flatMap contents ∧
      after'.map (·.unsited) = behind.flatMap contents ∧
      (after'.map (·.sect) = after.map (·.sect) ↔
        (firstSwitch? behind = some ".previous" → sect = s.back)) := by
  obtain ⟨s', hs', rfl⟩ := readUnit_eq_ok.mp h
  obtain ⟨t', ht', rfl⟩ := readUnit_eq_ok.mp h'
  rw [htext, List.zipIdx_append] at hs'
  rw [htext', List.zipIdx_append, List.zipIdx_append] at ht'
  obtain ⟨s, hs, hbehind⟩ := foldlM_append_eq_ok.mp hs'
  obtain ⟨s₁, hs₁, hexcursion⟩ := foldlM_append_eq_ok.mp ht'
  obtain rfl := Except.ok.inj (hs.symm.trans hs₁)
  obtain ⟨t, ht, hbehind'⟩ := foldlM_append_eq_ok.mp hexcursion
  obtain ⟨hsect, hstack, hback⟩ := State.places_of_isExcursion hlines ht
  obtain ⟨inside, hinside, hcontents⟩ := State.exists_new_of_lines ht
  obtain ⟨after, hafter, hcontents'⟩ := State.exists_new_of_lines hbehind
  obtain ⟨after', hafter', hcontents''⟩ := State.exists_new_of_lines hbehind'
  have hiff := State.sects_eq_iff hsect hstack hbehind hbehind' hafter hafter'
  rw [hback] at hiff
  refine ⟨s, s.records.reverse, inside.reverse, after.reverse, after'.reverse, hs,
    (List.reverse_reverse _).symm, ?_, ?_, ?_, ?_, ?_, ?_⟩
  · rw [hafter, List.reverse_append]
  · rw [hafter', hinside, List.reverse_append, List.reverse_append, List.append_assoc]
  · rw [List.map_reverse, hcontents, List.reverse_reverse]
  · rw [List.map_reverse, hcontents', List.reverse_reverse]
  · rw [List.map_reverse, hcontents'', List.reverse_reverse]
  · rw [List.map_reverse, List.map_reverse, List.reverse_inj, hiff]

/-- Nested excursions between a label and its data. -/
theorem excursion_unnoticed_of_nested :
    let front := [".section .rodata".toList, "A:".toList]
    let lines := [".pushsection .note".toList, "B: .long 2".toList, ".pushsection .data".toList,
      "C: .long 3".toList, ".popsection".toList, "D:".toList, ".popsection".toList]
    let behind := [".long 1".toList, ".text".toList, "f: ret".toList]
    ∃ rs rs' s before inside after after',
      readUnit ".section .rodata\nA:\n.long 1\n.text\nf: ret" = .ok rs ∧
      readUnit (".section .rodata\nA:\n.pushsection .note\nB: .long 2\n.pushsection .data\n" ++
        "C: .long 3\n.popsection\nD:\n.popsection\n.long 1\n.text\nf: ret") = .ok rs' ∧
      (front.zipIdx 1).foldlM State.line {} = .ok s ∧ s.records = before.reverse ∧
      rs = before ++ after ∧ rs' = before ++ (inside ++ after') ∧
      inside.map (·.unsited) = lines.flatMap contents ∧
      after.map (·.unsited) = behind.flatMap contents ∧
      after'.map (·.unsited) = behind.flatMap contents ∧
      after'.map (·.sect) = after.map (·.sect) := by
  intro front lines behind
  obtain ⟨rs, h, -⟩ : ∃ rs, readUnit ".section .rodata\nA:\n.long 1\n.text\nf: ret" = .ok rs ∧
      rs ≠ [] := exists_ok_of_any (by decide +kernel)
  obtain ⟨rs', h', -⟩ : ∃ rs, readUnit
      (".section .rodata\nA:\n.pushsection .note\nB: .long 2\n.pushsection .data\n" ++
        "C: .long 3\n.popsection\nD:\n.popsection\n.long 1\n.text\nf: ret") = .ok rs ∧
      rs ≠ [] := exists_ok_of_any (by decide +kernel)
  have hpair : IsBalanced (".pushsection .data".toList ::
      (["C: .long 3".toList] ++ ".popsection".toList :: ["D:".toList])) :=
    .pair (by decide +kernel) (.line (by decide +kernel) .nil) (by decide +kernel)
      (.line (by decide +kernel) .nil)
  have hlines : IsExcursion ".note" lines :=
    ⟨_, _ :: _, _, rfl, ⟨".note", by decide +kernel, by rfl⟩, .line (by decide +kernel) hpair,
      by decide +kernel⟩
  have htext : ".section .rodata\nA:\n.long 1\n.text\nf: ret".toList.splitOn '\n' =
      front ++ behind := by decide
  obtain ⟨s, before, inside, after, after', hs, hbefore, hrs, hrs', hinside, hafter, hafter', hiff⟩ :=
    excursion_unnoticed_iff htext (by decide +kernel) hlines h h'
  have hfirst : firstSwitch? behind ≠ some ".previous" := by decide +kernel
  exact ⟨rs, rs', s, before, inside, after, after', h, h', hs, hbefore, hrs, hrs', hinside, hafter,
    hafter', hiff.mpr fun hprevious => absurd hprevious hfirst⟩

/-- Behind an excursion to read-only data, which holds no line, `.previous` goes there and not to
the section of before. -/
theorem not_excursion_unnoticed :
    IsExcursion ".rodata" [".pushsection .rodata".toList, ".popsection".toList] ∧
    ∃ rs rs', readUnit ".data\n.previous\nfoo:\n" = .ok rs ∧
      readUnit ".data\n.pushsection .rodata\n.popsection\n.previous\nfoo:\n" = .ok rs' ∧
      rs.map (·.sect) = [".data", ".text", ".text"].map some ∧
      rs'.map (·.sect) = [".data", ".rodata", ".data", ".rodata", ".rodata"].map some := by
  obtain ⟨rs, h, hsects⟩ : ∃ rs, readUnit ".data\n.previous\nfoo:\n" = .ok rs ∧
      rs.map (·.sect) = [".data", ".text", ".text"].map some := exists_ok_of_any (by decide +kernel)
  obtain ⟨rs', h', hsects'⟩ : ∃ rs,
      readUnit ".data\n.pushsection .rodata\n.popsection\n.previous\nfoo:\n" = .ok rs ∧
      rs.map (·.sect) = [".data", ".rodata", ".data", ".rodata", ".rodata"].map some :=
    exists_ok_of_any (by decide +kernel)
  refine ⟨⟨_, [], _, rfl, ⟨".rodata", by decide +kernel, by rfl⟩, .nil, by decide +kernel⟩, rs, rs',
    h, h', hsects, hsects'⟩

end Source

end AsmBridge
