import AsmBridge.Proofs.Function.Alone

/-!
# Extents of a unit

A unit is divided into extents in one way only (`Divided.unique`), and whether it has functions is
decided extent by extent: it has if every extent can be read as a function by itself, and these are
its functions (`extractFunctions_eq_ok_iff`). Where a unit ends and another one begins with a
directive and a function label, the extents are those of the one and of the other, but for the
directive, which may belong to the last extent of the first unit (`Divided.append`).
-/

namespace AsmBridge

/-- The functions are read of the extents, one of each and in order. -/
def AreReadFrom (functions : List SourceFunction) (es : List Extent) : Prop :=
  List.Forall₂ (fun f e => IsReadFrom e.label e.records f) functions es

/-! ## Reading an extent -/

/-- Whether a function may end does not depend on what stands behind it. -/
lemma Draft.finish_boundary {d : Draft} {boundary : Boundary} {f : SourceFunction}
    (h : d.finish boundary = .ok f) (boundary' : Boundary) : d.finish boundary' = .ok f := by
  rw [finish] at h ⊢
  split_ifs at h with hphase hwritable
  obtain rfl := Except.ok.inj h
  simp only [hphase, hwritable, if_false]
  rfl

/-- What is read of records behind others. -/
lemma hasRead_foldlM {l : Label} {read rs : List Record} {d e : Draft} (hd : d.HasRead l read)
    (h : rs.foldlM Draft.record d = .ok e) : e.HasRead l (read ++ rs) := by
  induction rs generalizing d read with
  | nil =>
    obtain rfl := pure_eq_ok.mp h
    rwa [List.append_nil]
  | cons r rs ih =>
    obtain ⟨d', hd', h⟩ := foldlM_cons_eq_ok.mp h
    rw [List.append_cons]
    exact ih (hasRead_record hd hd') h

/-- The function that is read of an extent keeps of it what it should. -/
lemma IsReadFrom.isExtracted {l : Label} {own : List Record} {f : SourceFunction}
    (h : IsReadFrom l own f) : IsExtracted f ⟨l, own⟩ := by
  obtain ⟨d, boundary, hd, hphase, hf⟩ := h
  exact isExtracted_of_finish (hasRead_foldlM (hasRead_begin l) hd) hphase hf

namespace ExtractState

/-- The functions of a unit of which the state is what has been read and the records are what is
left. -/
def finishFrom (s : ExtractState) (rest : List Record) : Except Fault (List SourceFunction) :=
  rest.foldlM step s >>= finish

lemma finishFrom_cons (s : ExtractState) (r : Record) (rest : List Record) :
    s.finishFrom (r :: rest) = s.step r >>= fun s => s.finishFrom rest := by
  rw [finishFrom, List.foldlM_cons, bind_assoc]
  rfl

lemma finishFrom_eq_ok_iff {s : ExtractState} {rest : List Record}
    {functions : List SourceFunction} :
    s.finishFrom rest = .ok functions ↔
      ∃ s', rest.foldlM step s = .ok s' ∧ s'.finish = .ok functions :=
  bind_eq_ok

/-- Outside of functions a record that is no instruction does nothing unless it begins one. -/
lemma step_of_outside {r : Record} (hr : r.instruction? = none) (done : List SourceFunction) :
    step { done := done } r = .ok { done := done, draft := r.begun? } := by
  cases r with
  | label l =>
    rw [Record.begun?]
    cases hl : l.isFunction <;> simp [step, outside, hl]
  | directive d => rfl
  | instruction i => cases hr

/-- A function that is read up to its end is finished there, and the rest of the unit is read from
outside of functions. -/
lemma finishFrom_of_draft {l : Label} {d : Draft} (hlabel : d.function.label = l.name)
    {rest : List Record} (hrest : ∀ r ∈ rest.head?, r.ends l = true) {done : List SourceFunction}
    {functions : List SourceFunction} :
    finishFrom { done := done, draft := some d } rest = .ok functions ↔
      d.inPrologue = false ∧ ∃ f, (∃ boundary, d.finish boundary = .ok f) ∧
        finishFrom { done := f :: done } rest = .ok functions := by
  cases rest with
  | nil =>
    rw [finishFrom_eq_ok_iff]
    constructor
    · rintro ⟨s, hs, hfinish⟩
      obtain rfl := pure_eq_ok.mp hs
      rcases finish_eq_ok hfinish with ⟨hnone, -⟩ | ⟨e, f, he, hphase, hf, rfl⟩
      · cases hnone
      · obtain rfl := Option.some.inj he
        exact ⟨hphase, f, ⟨_, hf⟩, rfl⟩
    · rintro ⟨hphase, f, ⟨boundary, hf⟩, h⟩
      refine ⟨_, rfl, ?_⟩
      rw [finish]
      simp only [hphase, Draft.finish_boundary hf]
      exact h
  | cons r rest =>
    have hends : r.ends l = true := hrest r rfl
    have hnone : r.instruction? = none := by
      cases r with
      | instruction i => cases hends
      | _ => rfl
    have hstep : step { done := done, draft := some d } r =
        endDraft { done := done, draft := some d } d r := by
      rw [step]
      exact if_pos ((isEnd_eq_ends hlabel r).trans hends)
    rw [finishFrom_cons, hstep, bind_eq_ok]
    constructor
    · rintro ⟨s, hs, h⟩
      obtain ⟨hphase, f, hf, rfl⟩ := endDraft_eq_ok hs
      refine ⟨hphase, f, ⟨_, hf⟩, ?_⟩
      rw [finishFrom_cons, step_of_outside hnone]
      exact h
    · rintro ⟨hphase, f, ⟨boundary, hf⟩, h⟩
      rw [finishFrom_cons, step_of_outside hnone] at h
      refine ⟨_, ?_, h⟩
      unfold endDraft
      rw [if_neg (Bool.eq_false_iff.mp hphase), Draft.finish_boundary hf]
      cases r with
      | instruction i => cases hnone
      | _ => rfl

/-- Of an extent one function is read. -/
lemma finishFrom_of_extent {l : Label} {own rest : List Record} (hl : l.isFunction = true)
    (hown : ∀ r ∈ own, r.ends l = false) (hrest : ∀ r ∈ rest.head?, r.ends l = true)
    {done : List SourceFunction} {functions : List SourceFunction} :
    finishFrom { done := done } (.label l :: own ++ rest) = .ok functions ↔
      ∃ f, IsReadFrom l own f ∧ finishFrom { done := f :: done } rest = .ok functions := by
  have hbegin : step { done := done } (.label l) =
      .ok { done := done, draft := some (.begin l) } := by
    rw [step_of_outside rfl, Record.begun?, if_pos hl]
  have hsplit : finishFrom { done := done } (.label l :: own ++ rest) = .ok functions ↔
      ∃ d, own.foldlM Draft.record (.begin l) = .ok d ∧
        finishFrom { done := done, draft := some d } rest = .ok functions := by
    rw [List.cons_append, finishFrom_cons, hbegin]
    constructor
    · intro h
      obtain ⟨s, hs, hfinish⟩ := finishFrom_eq_ok_iff.mp h
      obtain ⟨s₁, hs₁, hs⟩ := foldlM_append_eq_ok.mp hs
      obtain ⟨d, hd, rfl⟩ := (foldlM_step_eq_ok hown (hasRead_begin l)).mp hs₁
      exact ⟨d, hd, finishFrom_eq_ok_iff.mpr ⟨s, hs, hfinish⟩⟩
    · rintro ⟨d, hd, h⟩
      obtain ⟨s, hs, hfinish⟩ := finishFrom_eq_ok_iff.mp h
      exact finishFrom_eq_ok_iff.mpr ⟨s, foldlM_append_eq_ok.mpr
        ⟨_, (foldlM_step_eq_ok hown (hasRead_begin l)).mpr ⟨d, hd, rfl⟩, hs⟩, hfinish⟩
  rw [hsplit]
  constructor
  · rintro ⟨d, hd, h⟩
    obtain ⟨hphase, f, ⟨boundary, hf⟩, h⟩ := (finishFrom_of_draft (label_of_foldlM hd) hrest).mp h
    exact ⟨f, ⟨d, boundary, hd, hphase, hf⟩, h⟩
  · rintro ⟨f, ⟨d, boundary, hd, hphase, hf⟩, h⟩
    exact ⟨d, hd, (finishFrom_of_draft (label_of_foldlM hd) hrest).mpr
      ⟨hphase, f, ⟨boundary, hf⟩, h⟩⟩

/-- From outside of functions those of the extents are read. -/
lemma finishFrom_of_divided {rest : List Record} {es : List Extent} (h : Divided rest es)
    {done functions : List SourceFunction} :
    finishFrom { done := done } rest = .ok functions ↔
      ∃ fs, functions = done.reverse ++ fs ∧ AreReadFrom fs es := by
  induction h generalizing done with
  | nil =>
    constructor
    · intro h
      exact ⟨[], by rw [List.append_nil]; exact (Except.ok.inj h).symm, .nil⟩
    · rintro ⟨fs, rfl, ⟨⟩⟩
      rw [List.append_nil]
      rfl
  | @gap r rest es hr hl h ih =>
    have hbegun : r.begun? = none := by
      cases r with
      | label l => exact if_neg (Bool.eq_false_iff.mp hl)
      | _ => rfl
    rw [finishFrom_cons, step_of_outside hr, hbegun]
    exact ih
  | @extent l own rest es hl hown hrest h ih =>
    rw [finishFrom_of_extent hl hown hrest]
    constructor
    · rintro ⟨f, hf, h⟩
      obtain ⟨fs, rfl, hfs⟩ := ih.mp h
      exact ⟨f :: fs, by simp, .cons hf hfs⟩
    · rintro ⟨fs, rfl, hfs⟩
      cases hfs with
      | @cons f _ fs _ hf hfs => exact ⟨f, hf, ih.mpr ⟨fs, by simp, hfs⟩⟩

end ExtractState

/-- Of a divided unit the functions of its extents are read. -/
lemma Divided.extractFunctions_eq_ok_iff {records : List Record} {es : List Extent}
    (h : Divided records es) {functions : List SourceFunction} :
    extractFunctions records = .ok functions ↔ AreReadFrom functions es := by
  change ExtractState.finishFrom {} records = .ok functions ↔ _
  rw [ExtractState.finishFrom_of_divided h]
  constructor
  · rintro ⟨fs, rfl, hfs⟩
    exact hfs
  · exact fun hfs => ⟨functions, rfl, hfs⟩

/-- A unit has functions if it is divided into extents each of which can be read as one. -/
lemma extractFunctions_eq_ok_iff {records : List Record} {functions : List SourceFunction} :
    extractFunctions records = .ok functions ↔
      ∃ es, Divided records es ∧ AreReadFrom functions es := by
  constructor
  · intro h
    obtain ⟨es, hdivided, -⟩ := exists_extents h
    exact ⟨es, hdivided, hdivided.extractFunctions_eq_ok_iff.mp h⟩
  · rintro ⟨es, hdivided, hfs⟩
    exact hdivided.extractFunctions_eq_ok_iff.mpr hfs

/-! ## The extents of a unit -/

/-- The records of an extent are those up to the first one that ends its function. -/
lemma takeWhile_of_extent {l : Label} {own rest : List Record} (hown : ∀ r ∈ own, r.ends l = false)
    (hrest : ∀ r ∈ rest.head?, r.ends l = true) :
    (own ++ rest).takeWhile (fun r => !r.ends l) = own := by
  rw [List.takeWhile_append_of_pos (fun r hr => by simp [hown r hr])]
  cases rest with
  | nil => exact List.append_nil own
  | cons r rest => simp [hrest r rfl]

/-- A unit is divided in one way only. -/
lemma Divided.unique {records : List Record} {es es' : List Extent} (h : Divided records es)
    (h' : Divided records es') : es = es' := by
  induction h generalizing es' with
  | nil =>
    generalize heq : ([] : List Record) = records at h'
    cases h' with
    | nil => rfl
    | _ => cases heq
  | @gap r rest es hr hl h ih =>
    generalize heq : r :: rest = records at h'
    cases h' with
    | nil => cases heq
    | gap _ _ h' =>
      obtain ⟨-, rfl⟩ := List.cons.inj heq
      exact ih h'
    | extent hl' _ _ _ =>
      obtain ⟨rfl, -⟩ := List.cons.inj heq
      exact nomatch hl.symm.trans hl'
  | @extent l own rest es hl hown hrest h ih =>
    generalize heq : Record.label l :: own ++ rest = records at h'
    cases h' with
    | nil => cases heq
    | gap _ hl' _ =>
      obtain ⟨rfl, -⟩ := List.cons.inj heq
      exact nomatch hl'.symm.trans hl
    | @extent l' own' rest' es' hl' hown' hrest' h' =>
      obtain ⟨hlabel, hrecords⟩ : Record.label l = .label l' ∧ own ++ rest = own' ++ rest' :=
        List.cons.inj heq
      obtain rfl := Record.label.inj hlabel
      obtain rfl : own = own' := by
        rw [← takeWhile_of_extent hown hrest, hrecords, takeWhile_of_extent hown' hrest']
      rw [ih (List.append_cancel_left hrecords ▸ h')]

/-- The labels among records that begin functions, in order. -/
def functionLabels (rs : List Record) : List Label :=
  (rs.filterMap (·.label?)).filter (·.isFunction)

lemma functionLabels_append (rs rs' : List Record) :
    functionLabels (rs ++ rs') = functionLabels rs ++ functionLabels rs' := by
  simp [functionLabels]

lemma functionLabels_of_begins {r : Record} (h : r.begins = false) : functionLabels [r] = [] := by
  cases r with
  | label l =>
    have hl : l.isFunction = false := h
    simp [functionLabels, Record.label?, hl]
  | _ => rfl

/-- Records that do not end a function begin none. -/
lemma functionLabels_of_ends {l : Label} {rs : List Record} (h : ∀ r ∈ rs, r.ends l = false) :
    functionLabels rs = [] := by
  induction rs with
  | nil => rfl
  | cons r rs ih =>
    obtain ⟨hr, hrs⟩ := List.forall_mem_cons.mp h
    rw [← List.singleton_append, functionLabels_append, ih hrs, List.append_nil]
    refine functionLabels_of_begins ?_
    cases r with
    | label l' =>
      have hl' : l'.isFunctionEnd = false := hr
      rw [Label.isFunctionEnd, Bool.or_eq_false_iff] at hl'
      exact hl'.2
    | _ => rfl

/-- The function labels of a unit are those of its extents. -/
lemma Divided.functionLabels {records : List Record} {es : List Extent}
    (h : Divided records es) : functionLabels records = es.map (·.label) := by
  induction h with
  | nil => rfl
  | gap _ hbegins _ ih =>
    rw [← List.singleton_append, functionLabels_append, functionLabels_of_begins hbegins, ih]
    rfl
  | @extent l own rest es hl hown _ _ ih =>
    have hlabel : AsmBridge.functionLabels [.label l] = [l] := by
      simp [AsmBridge.functionLabels, Record.label?, hl]
    rw [functionLabels_append, ← List.singleton_append, functionLabels_append,
      functionLabels_of_ends hown, ih, hlabel]
    rfl

/-- The second extent is the first one, perhaps with a directive at its end. -/
def Extent.EndsIn (d : Directive) (e e' : Extent) : Prop :=
  e'.label = e.label ∧ (e'.records = e.records ∨ e'.records = e.records ++ [.directive d])

/-- Where another unit follows, with a directive between the two, the directive may go to the last
extent of the first unit. -/
lemma Divided.append {records records' : List Record} {es es' : List Extent}
    (h : Divided records es) {d : Directive} {l : Label} (hl : l.isFunction = true)
    (h' : Divided (.label l :: records') es') :
    ∃ es₁, List.Forall₂ (Extent.EndsIn d) es es₁ ∧
      Divided (records ++ .directive d :: .label l :: records') (es₁ ++ es') := by
  have hsame : ∀ es : List Extent, List.Forall₂ (Extent.EndsIn d) es es := fun es =>
    List.forall₂_same.mpr fun e _ => ⟨rfl, .inl rfl⟩
  induction h with
  | nil => exact ⟨[], .nil, .gap rfl rfl h'⟩
  | gap hr hbegins h ih =>
    obtain ⟨es₁, hes₁, hdivided⟩ := ih
    exact ⟨es₁, hes₁, .gap hr hbegins hdivided⟩
  | @extent m own rest es hm hown hrest h ih =>
    cases rest with
    | cons r rest =>
      obtain ⟨es₁, hes₁, hdivided⟩ := ih
      refine ⟨⟨m, own⟩ :: es₁, .cons ⟨rfl, .inl rfl⟩ hes₁, ?_⟩
      have hrest : ∀ r' ∈ (r :: rest ++ .directive d :: .label l :: records').head?,
          r'.ends m = true := hrest
      have hdivided := Divided.extent hm hown hrest hdivided
      rwa [← List.append_assoc] at hdivided
    | nil =>
      obtain rfl : es = [] := h.unique .nil
      cases hd : (Record.directive d).ends m with
      | true =>
        have hrest : ∀ r ∈ (Record.directive d :: .label l :: records').head?, r.ends m = true := by
          rintro r ⟨⟩
          exact hd
        have hdivided := Divided.extent hm hown hrest (.gap rfl rfl h')
        rw [List.append_nil]
        exact ⟨[⟨m, own⟩], hsame _, hdivided⟩
      | false =>
        have hown' : ∀ r ∈ own ++ [.directive d], r.ends m = false := by
          intro r hr
          rcases List.mem_append.mp hr with hr | hr
          · exact hown r hr
          · rw [List.mem_singleton.mp hr]
            exact hd
        have hrest : ∀ r ∈ (Record.label l :: records').head?, r.ends m = true := by
          rintro r ⟨⟩
          simp [Record.ends, Label.isFunctionEnd, hl]
        have hdivided := Divided.extent hm hown' hrest h'
        refine ⟨[⟨m, own ++ [.directive d]⟩], .cons ⟨rfl, .inr rfl⟩ .nil, ?_⟩
        simpa using hdivided

/-- A directive at the end of an extent stands at the end of its function. -/
lemma IsReadFrom.endsIn {e e' : Extent} {d : Directive} {f : SourceFunction}
    (h : IsReadFrom e.label e.records f) (he : Extent.EndsIn d e e') :
    ∃ ds : List Directive, (∀ d' ∈ ds, d' = d) ∧
      IsReadFrom e'.label e'.records (f.withDirectives ds) := by
  obtain ⟨hlabel, hrecords | hrecords⟩ := he
  · refine ⟨[], by simp, ?_⟩
    rw [hlabel, hrecords]
    simpa [SourceFunction.withDirectives] using h
  · obtain ⟨draft, boundary, hdraft, hphase, hf⟩ := h
    refine ⟨[d], by simp, draft.withDirectives [d], boundary, ?_, hphase,
      Draft.finish_withDirectives hf [d] boundary⟩
    rw [hlabel, hrecords]
    exact foldlM_append_eq_ok.mpr ⟨draft, hdraft, rfl⟩

end AsmBridge
