import AsmBridge.Data.Index
import AsmBridge.Proofs.Function.Extraction
import AsmBridge.Proofs.Source.Sections
import Mathlib.Data.List.Nodup
import Mathlib.Data.List.TakeWhile

/-!
# A function by itself

From a unit one function can be left over: the code of the others is blanked, while the directives
and the sections of data stay (`IsAlone`). Every function can, for instance by blanking all other
code (`isAlone_of_extractFunctions`). The unit that is left has this function only, and the same
constant data (`readAlone`). The function is the one of the whole unit, except that it may end later
than there: it then has directives of the blanked functions at its end, which emit no data.
-/

namespace AsmBridge

/-! ## Blanked records -/

/-- The record is code: an instruction, or a label or a data directive in a section of
instructions. -/
def Record.isCode (r : Record) : Bool :=
  match r with
  | .label _ => r.isText
  | .directive d => Directive.isDataName d.name && r.isText
  | .instruction _ => true

/-- The record is a directive that emits no data. -/
def Record.isPlain : Record → Bool
  | .directive d => !Directive.isDataName d.name
  | _ => false

/-- The second row of records is the first one with code blanked: none of its records is an
instruction or begins a function, and what it lacks is code. -/
inductive Blanks : List Record → List Record → Prop
  | nil : Blanks [] []
  | keep {r : Record} {rs rs' : List Record} (hr : r.instruction? = none) (hl : r.begins = false)
      (h : Blanks rs rs') : Blanks (r :: rs) (r :: rs')
  | blank {r : Record} {rs rs' : List Record} (hr : r.isCode = true) (h : Blanks rs rs') :
      Blanks (r :: rs) rs'

/-- The second row of records is the first one with one function left over, that of the given label:
its records up to its end stay as they are, and the code before and behind it is blanked, behind it
at least up to its new end. -/
inductive IsAlone (name : String) : List Record → List Record → Prop
  | intro {l : Label} {front own back front' back' : List Record} (hl : l.isFunction = true)
      (hname : l.name = name) (hown : ∀ r ∈ own, r.ends l = false)
      (hback : ∀ r ∈ back.head?, r.ends l = true) (hfront' : Blanks front front')
      (hback' : Blanks back back')
      (hcode : ∀ r ∈ back'.takeWhile fun r => !r.ends l, r.isCode = false) :
      IsAlone name (front ++ .label l :: (own ++ back)) (front' ++ .label l :: (own ++ back'))

/-- The records without code. -/
def withoutCode (rs : List Record) : List Record := rs.filter fun r => !r.isCode

/-- The records with one function left over, that of the given label, and all other code blanked. -/
def leaveOver (name : String) : List Record → List Record
  | [] => []
  | .label l :: rest =>
    if l.isFunction && l.name == name then
      .label l :: ((rest.takeWhile fun r => !r.ends l) ++
        withoutCode (rest.dropWhile fun r => !r.ends l))
    else withoutCode [.label l] ++ leaveOver name rest
  | r :: rest => withoutCode [r] ++ leaveOver name rest

lemma isText_of_isFunction {l : Label} (h : l.isFunction = true) :
    (Record.label l).isText = true := (Bool.and_eq_true _ _ ▸ h).1

/-- One record more, which is blanked if it is code. -/
lemma Blanks.cons {rs rs' : List Record} (h : Blanks rs rs') (r : Record) :
    Blanks (r :: rs) (withoutCode [r] ++ rs') := by
  cases hr : r.isCode with
  | true =>
    rw [withoutCode, List.filter_cons_of_neg (by simp [hr])]
    exact h.blank hr
  | false =>
    rw [withoutCode, List.filter_cons_of_pos (by simp [hr])]
    refine h.keep ?_ ?_
    · cases r with
      | instruction i => cases hr
      | _ => rfl
    · cases r with
      | label l =>
        refine Bool.eq_false_iff.mpr fun hl => ?_
        exact nomatch hr.symm.trans (isText_of_isFunction hl)
      | _ => rfl

lemma blanks_withoutCode (rs : List Record) : Blanks rs (withoutCode rs) := by
  induction rs with
  | nil => exact .nil
  | cons r rs ih =>
    have hcons := ih.cons r
    rwa [withoutCode, withoutCode, ← List.filter_append] at hcons

lemma IsAlone.cons {name : String} {rs rs' : List Record} (h : IsAlone name rs rs') (r : Record) :
    IsAlone name (r :: rs) (withoutCode [r] ++ rs') := by
  cases h with
  | intro hl hname hown hback hfront' hback' hcode =>
    rw [← List.append_assoc]
    exact .intro hl hname hown hback (hfront'.cons r) hback' hcode

/-- Behind the records that do not end a function stands one that does. -/
lemma head?_dropWhile_ends (l : Label) (rs : List Record) :
    ∀ r ∈ (rs.dropWhile fun r => !r.ends l).head?, r.ends l = true := by
  intro r hr
  have hhead := List.head?_dropWhile_not (fun r : Record => !r.ends l) rs
  rw [Option.mem_def.mp hr] at hhead
  simpa using hhead

/-- In the records with one function left over it stands alone, if there is a function label of its
name. -/
lemma isAlone_leaveOver {name : String} {records : List Record}
    (h : ∃ l, .label l ∈ records ∧ l.isFunction = true ∧ l.name = name) :
    IsAlone name records (leaveOver name records) := by
  induction records with
  | nil =>
    obtain ⟨l, hl, -⟩ := h
    cases hl
  | cons r rest ih =>
    have hrest : (∀ l, r = .label l → (l.isFunction && l.name == name) = false) →
        ∃ l, .label l ∈ rest ∧ l.isFunction = true ∧ l.name = name := by
      intro hr
      obtain ⟨l, hmem, hl, hname⟩ := h
      rcases List.mem_cons.mp hmem with heq | hmem
      · have hfalse := hr l heq.symm
        rw [hl, hname, beq_self_eq_true] at hfalse
        cases hfalse
      · exact ⟨l, hmem, hl, hname⟩
    cases r with
    | label l =>
      rw [leaveOver]
      split_ifs with hl
      · rw [Bool.and_eq_true, beq_iff_eq] at hl
        have hown : ∀ r ∈ rest.takeWhile fun r => !r.ends l, r.ends l = false := fun r hr => by
          simpa using List.mem_takeWhile_imp hr
        have hcode : ∀ r ∈ (withoutCode (rest.dropWhile fun r => !r.ends l)).takeWhile
            fun r => !r.ends l, r.isCode = false := by
          intro r hr
          simpa using (List.mem_filter.mp ((List.takeWhile_sublist _).subset hr)).2
        have halone : IsAlone name ([] ++ .label l :: (_ ++ _)) ([] ++ .label l :: (_ ++ _)) :=
          .intro hl.1 hl.2 hown (head?_dropWhile_ends l rest) .nil (blanks_withoutCode _) hcode
        rwa [List.takeWhile_append_dropWhile] at halone
      · refine (ih (hrest ?_)).cons _
        rintro l' ⟨⟩
        exact Bool.eq_false_iff.mpr hl
    | directive d => exact (ih (hrest fun l hl => nomatch hl)).cons _
    | instruction i => exact (ih (hrest fun l hl => nomatch hl)).cons _

/-- The label of an extent is one of the unit. -/
lemma Divided.label_mem {records : List Record} {es : List Extent} (h : Divided records es)
    {e : Extent} (he : e ∈ es) : .label e.label ∈ records ∧ e.label.isFunction = true := by
  induction h with
  | nil => cases he
  | gap _ _ _ ih =>
    obtain ⟨hmem, hl⟩ := ih he
    exact ⟨List.mem_cons_of_mem _ hmem, hl⟩
  | extent hl _ _ _ ih =>
    rcases List.mem_cons.mp he with rfl | he
    · exact ⟨List.mem_cons_self, hl⟩
    · obtain ⟨hmem, hl⟩ := ih he
      exact ⟨List.mem_append_right _ hmem, hl⟩

/-- Every function of a unit can be left over. -/
lemma isAlone_of_extractFunctions {records : List Record} {functions : List SourceFunction}
    (h : extractFunctions records = .ok functions) {f : SourceFunction} (hf : f ∈ functions) :
    IsAlone f.label records (leaveOver f.label records) := by
  obtain ⟨extents, hdivided, hfs⟩ := exists_extents h
  obtain ⟨e, he, hfe⟩ := exists_of_mem_left hfs hf
  obtain ⟨hmem, hl⟩ := hdivided.label_mem he
  exact isAlone_leaveOver ⟨e.label, hmem, hl, hfe.label.symm⟩

/-- What is left where code is blanked is no code of a function. -/
lemma Blanks.left {rs rs' : List Record} (h : Blanks rs rs') :
    ∀ r ∈ rs', r.instruction? = none ∧ r.begins = false := by
  induction h with
  | nil => exact fun r hr => (nomatch hr)
  | keep hr hl _ ih => exact List.forall_mem_cons.mpr ⟨⟨hr, hl⟩, ih⟩
  | blank _ _ ih => exact ih

/-- A directive that does not end a function is in a section of instructions. -/
lemma isText_of_ends {l : Label} {r : Record} (hr : r.isDirective = true)
    (h : (!r.ends l) = true) : r.isText = true := by
  cases r with
  | directive d =>
    rw [Record.ends, Bool.not_or, Bool.not_not, Bool.and_eq_true] at h
    exact h.2
  | _ => cases hr

/-- A record that is left before the new end of a function stands behind directives in sections of
instructions only. -/
lemma Blanks.exists_of_mem_takeWhile {l : Label} {rs rs' : List Record} (h : Blanks rs rs')
    {r : Record} (hr : r ∈ rs'.takeWhile fun r => !r.ends l) :
    ∃ front back, rs = front ++ r :: back ∧
      ∀ d ∈ front, d.isDirective = true → d.isText = true := by
  induction h with
  | nil => cases hr
  | @keep b rs rs' _ _ _ ih =>
    rw [List.takeWhile_cons] at hr
    split_ifs at hr with hb
    · rcases List.mem_cons.mp hr with rfl | hr
      · exact ⟨[], rs, rfl, fun d hd => (nomatch hd)⟩
      · obtain ⟨front, back, rfl, hfront⟩ := ih hr
        refine ⟨b :: front, back, rfl, List.forall_mem_cons.mpr ⟨fun hd => ?_, hfront⟩⟩
        exact isText_of_ends hd hb
    · cases hr
  | @blank b rs rs' hb _ ih =>
    obtain ⟨front, back, rfl, hfront⟩ := ih hr
    refine ⟨b :: front, back, rfl, List.forall_mem_cons.mpr ⟨fun hd => ?_, hfront⟩⟩
    cases b with
    | directive d => exact (Bool.and_eq_true _ _ ▸ hb).2
    | _ => cases hd

/-- Where the code behind a function is blanked up to its new end, plain directives are left. -/
lemma Blanks.isPlain {l : Label} {front own back back' : List Record} (h : Blanks back back')
    (hsectioned : IsSectioned (front ++ .label l :: (own ++ back))) (hl : l.isFunction = true)
    (hown : ∀ r ∈ own, r.ends l = false)
    (hcode : ∀ r ∈ back'.takeWhile fun r => !r.ends l, r.isCode = false) :
    ∀ r ∈ back'.takeWhile fun r => !r.ends l, r.isPlain = true := by
  intro r hr
  have hnocode := hcode r hr
  have hends := List.mem_takeWhile_imp hr
  cases r with
  | directive d =>
    rw [Record.isCode, isText_of_ends rfl hends, Bool.and_true] at hnocode
    simp [Record.isPlain, hnocode]
  | instruction i => cases hnocode
  | label l' =>
    obtain ⟨behind, rest, rfl, hbehind⟩ := h.exists_of_mem_takeWhile hr
    have hchain := List.IsChain.right_of_append hsectioned
    rw [← List.append_assoc] at hchain
    refine nomatch hnocode.symm.trans
      (isText_of_isSectioned hchain (isText_of_isFunction hl) (fun d hd hdirective => ?_) rfl)
    rcases List.mem_append.mp hd with hd | hd
    · exact isText_of_ends hdirective (by rw [hown d hd]; rfl)
    · exact hbehind d hd hdirective

/-! ## The constant data -/

/-- A section of instructions holds no read-only data, and its labels are no data. -/
lemma Section.isReadOnly_of_isText {s : String} (h : Section.isText s = true) :
    Section.isReadOnly s = false ∧ Section.resemblesText s = true := by
  unfold Section.isText at h
  rw [Bool.or_eq_true, Bool.or_eq_true, beq_iff_eq, beq_iff_eq] at h
  rcases h with (rfl | h) | rfl
  · decide
  · rw [Text.startsWith_eq] at h
    obtain ⟨t, ht⟩ := List.isPrefixOf_iff_prefix.mp h
    have hlead : ∀ lead : String, Text.startsWith lead s =
        lead.toList.isPrefixOf (".text.".toList ++ t) := fun lead => by
      rw [ht, Text.startsWith_eq]
    constructor
    · simp [Section.isReadOnly, Section.isSegmented, Text.startsWithAny, hlead, List.isPrefixOf]
    · simp [Section.resemblesText, Text.startsWithAny, hlead]
  · decide

namespace DataIndex

/-- A data directive does not switch sections. -/
lemma switches_of_isDataName {d : Directive} (h : Directive.isDataName d.name = true) :
    switches (.directive d) = none := by
  have hswitches : ∀ name ∈ sectionSwitches, Directive.isDataName name = false := by decide
  refine if_neg fun hmem => ?_
  rw [List.contains_iff_mem] at hmem
  exact Bool.false_ne_true ((hswitches _ hmem).symm.trans h)

/-- Code leaves the data alone. -/
lemma State.record_of_isCode {s s' : State} {r : Record} (hr : r.isCode = true)
    (h : s.record r = .ok s') : s' = s := by
  have htext : ∀ sect : Option String, (sect.map Section.isText).getD false = true →
      Section.isText (sect.getD "") = true := by
    rintro (_ | s) hs
    · cases hs
    · exact hs
  unfold State.record at h
  cases r with
  | label l =>
    obtain ⟨hreadOnly, hresembles⟩ := Section.isReadOnly_of_isText (htext l.sect hr)
    simp only [switches, sectionOf, hreadOnly, hresembles, Bool.false_eq_true, if_false,
      if_true] at h
    exact (Except.ok.inj h).symm
  | directive d =>
    rw [Record.isCode, Bool.and_eq_true] at hr
    obtain ⟨hreadOnly, -⟩ := Section.isReadOnly_of_isText (htext d.sect hr.2)
    simp only [switches_of_isDataName hr.1, sectionOf, hreadOnly, Bool.false_eq_true,
      if_false] at h
    exact (Except.ok.inj h).symm
  | instruction i =>
    simp only [switches] at h
    split_ifs at h
    exact (Except.ok.inj h).symm

/-- Where code is blanked the data stay. -/
lemma State.foldlM_of_blanks {rs rs' : List Record} (hblanks : Blanks rs rs') {s s' : State}
    (h : rs.foldlM State.record s = .ok s') : rs'.foldlM State.record s = .ok s' := by
  induction hblanks generalizing s with
  | nil => exact h
  | keep _ _ _ ih =>
    obtain ⟨s₁, hs₁, hrest⟩ := foldlM_cons_eq_ok.mp h
    exact foldlM_cons_eq_ok.mpr ⟨s₁, hs₁, ih hrest⟩
  | blank hr _ ih =>
    obtain ⟨s₁, hs₁, hrest⟩ := foldlM_cons_eq_ok.mp h
    rw [record_of_isCode hr hs₁] at hrest
    exact ih hrest

/-- A unit with one function left over has the data of the whole unit. -/
lemma ofRecords_of_isAlone {name : String} {records records' : List Record}
    (halone : IsAlone name records records') {x : DataIndex} (h : ofRecords records = .ok x) :
    ofRecords records' = .ok x := by
  obtain ⟨s, hs, rfl⟩ := map_eq_ok.mp h
  refine map_eq_ok.mpr ⟨s, ?_, rfl⟩
  cases halone with
  | @intro l front own back front' back' _ _ _ _ hfront' hback' _ =>
    obtain ⟨s₁, hs₁, hs⟩ := foldlM_append_eq_ok.mp hs
    obtain ⟨s₂, hs₂, hs⟩ := foldlM_cons_eq_ok.mp hs
    obtain ⟨s₃, hs₃, hs⟩ := foldlM_append_eq_ok.mp hs
    exact foldlM_append_eq_ok.mpr ⟨s₁, State.foldlM_of_blanks hfront' hs₁,
      foldlM_cons_eq_ok.mpr ⟨s₂, hs₂,
        foldlM_append_eq_ok.mpr ⟨s₃, hs₃, State.foldlM_of_blanks hback' hs⟩⟩⟩

end DataIndex

/-! ## The function -/

/-- The function is what is read of the records behind its label. -/
def IsReadFrom (l : Label) (own : List Record) (f : SourceFunction) : Prop :=
  ∃ d boundary, own.foldlM Draft.record (.begin l) = .ok d ∧ d.inPrologue = false ∧
    d.finish boundary = .ok f

/-- The function with directives at its end. -/
def SourceFunction.withDirectives (f : SourceFunction) (ds : List Directive) : SourceFunction :=
  { f with body := f.body ++ ds.map .directive }

namespace Draft

/-- The draft with directives at its end. -/
def withDirectives (d : Draft) (ds : List Directive) : Draft :=
  { d with
    function := { d.function with
      body := (ds.map BodyItem.directive).reverse ++ d.function.body } }

/-- Plain records are directives that are read as such. -/
lemma exists_foldlM_of_isPlain {rs : List Record} (h : ∀ r ∈ rs, r.isPlain = true) (d : Draft) :
    ∃ ds : List Directive, (∀ e ∈ ds, Directive.isDataName e.name = false) ∧
      rs.foldlM record d = .ok (d.withDirectives ds) := by
  induction rs generalizing d with
  | nil => exact ⟨[], by simp, rfl⟩
  | cons r rs ih =>
    obtain ⟨hr, hrs⟩ := List.forall_mem_cons.mp h
    cases r with
    | directive e =>
      obtain ⟨ds, hds, hfold⟩ := ih hrs (d.push (.directive e))
      refine ⟨e :: ds, List.forall_mem_cons.mpr ⟨by simpa [Record.isPlain] using hr, hds⟩,
        foldlM_cons_eq_ok.mpr ⟨_, rfl, hfold.trans ?_⟩⟩
      simp [withDirectives, push]
    | label l => cases hr
    | instruction i => cases hr

/-- A finished function has the label of its draft. -/
lemma label_of_finish {d : Draft} {boundary : Boundary} {f : SourceFunction}
    (h : d.finish boundary = .ok f) : f.label = d.function.label := by
  rw [finish] at h
  split_ifs at h
  rw [← Except.ok.inj h]

/-- Directives at the end of a draft stand at the end of its function. -/
lemma finish_withDirectives {d : Draft} {boundary : Boundary} {f : SourceFunction}
    (h : d.finish boundary = .ok f) (ds : List Directive) (boundary' : Boundary) :
    (d.withDirectives ds).finish boundary' = .ok (f.withDirectives ds) := by
  rw [finish] at h ⊢
  split_ifs at h with hphase hwritable
  obtain rfl := Except.ok.inj h
  have hphase' : ¬(d.withDirectives ds).phase = .running := hphase
  have hwritable' : ¬(!Text.isWritable (d.withDirectives ds).function.locals) = true := hwritable
  rw [if_neg hphase', if_neg hwritable']
  simp [withDirectives, SourceFunction.withDirectives]

end Draft

/-- A draft has the label it begins with. -/
lemma label_of_foldlM {l : Label} {rs : List Record} {d : Draft}
    (h : rs.foldlM Draft.record (.begin l) = .ok d) : d.function.label = l.name := by
  obtain ⟨read, hread⟩ := foldlM_induction (fun d : Draft => ∃ read, d.HasRead l read)
    (fun _ _ _ hstep ⟨_, hread⟩ => ⟨_, hasRead_record hread hstep⟩) h ⟨[], hasRead_begin l⟩
  exact hread.label

namespace ExtractState

variable {s s' : ExtractState} {l : Label}

/-- Records that do not end a function are read as its own. -/
lemma foldlM_step_eq_ok {rs : List Record} (hrs : ∀ r ∈ rs, r.ends l = false) {d : Draft}
    {read : List Record} (hd : d.HasRead l read) {done : List SourceFunction} :
    rs.foldlM step { done := done, draft := some d } = .ok s' ↔
      ∃ e, rs.foldlM Draft.record d = .ok e ∧ s' = { done := done, draft := some e } := by
  induction rs generalizing d read with
  | nil =>
    constructor
    · intro h
      exact ⟨d, rfl, (pure_eq_ok.mp h).symm⟩
    · rintro ⟨e, he, rfl⟩
      rw [pure_eq_ok.mp he]
      rfl
  | cons r rs ih =>
    obtain ⟨hr, hrs⟩ := List.forall_mem_cons.mp hrs
    have hstep : step { done := done, draft := some d } r =
        (d.record r).map fun e => { done := done, draft := some e } := by
      rw [step]
      exact if_neg (by rw [isEnd_eq_ends hd.label, hr]; exact Bool.false_ne_true)
    rw [foldlM_cons_eq_ok, hstep]
    constructor
    · rintro ⟨s₁, hs₁, h⟩
      obtain ⟨e, he, rfl⟩ := map_eq_ok.mp hs₁
      obtain ⟨e', he', rfl⟩ := (ih hrs (hasRead_record hd he)).mp h
      exact ⟨e', foldlM_cons_eq_ok.mpr ⟨e, he, he'⟩, rfl⟩
    · rintro ⟨e', h, rfl⟩
      obtain ⟨e, he, he'⟩ := foldlM_cons_eq_ok.mp h
      exact ⟨_, map_eq_ok.mpr ⟨e, he, rfl⟩, (ih hrs (hasRead_record hd he)).mpr ⟨e', he', rfl⟩⟩

/-- A function label begins its function, wherever it stands. -/
lemma draft_of_label (hl : l.isFunction = true) (h : s.step (.label l) = .ok s') :
    s'.draft = some (.begin l) := by
  unfold step at h
  cases hs : s.draft with
  | none =>
    simp only [hs, outside, hl, if_true] at h
    rw [← Except.ok.inj h]
  | some d =>
    have hend : d.isEnd (.label l) = true := by simp [Draft.isEnd, Label.isFunctionEnd, hl]
    simp only [hs, hend, if_true] at h
    obtain ⟨-, f, -, rfl⟩ := endDraft_eq_ok h
    exact if_pos hl

/-- What is finished stays. -/
lemma mem_done_of_step {f : SourceFunction} {r : Record} (h : s.step r = .ok s')
    (hf : f ∈ s.done) : f ∈ s'.done := by
  unfold step at h
  split at h
  · cases r with
    | label l =>
      rw [← Except.ok.inj h]
      split <;> exact hf
    | directive d => rwa [← Except.ok.inj h]
    | instruction i => cases h
  · split at h
    · obtain ⟨-, g, -, rfl⟩ := endDraft_eq_ok h
      exact List.mem_cons_of_mem _ hf
    · obtain ⟨e, -, rfl⟩ := map_eq_ok.mp h
      exact hf

lemma mem_of_finish {functions : List SourceFunction} {f : SourceFunction}
    (h : s.finish = .ok functions) (hf : f ∈ s.done) : f ∈ functions := by
  rcases finish_eq_ok h with ⟨-, rfl⟩ | ⟨d, g, -, -, -, rfl⟩
  · exact List.mem_reverse.mpr hf
  · exact List.mem_reverse.mpr (List.mem_cons_of_mem _ hf)

/-- A record that ends a function and begins none. -/
lemma step_of_isEnd {d : Draft} {r : Record} {f : SourceFunction} (hr : d.isEnd r = true)
    (hl : r.begins = false) (hphase : d.inPrologue = false)
    (hf : ∀ boundary, d.finish boundary = .ok f) (done : List SourceFunction) :
    step { done := done, draft := some d } r = .ok { done := f :: done } := by
  simp only [step, hr, if_true, endDraft, hphase, Bool.false_eq_true, if_false, hf]
  cases r with
  | label l =>
    have hl : l.isFunction = false := hl
    simp only [hl, Bool.false_eq_true, if_false]
    rfl
  | _ => rfl

/-- Outside of functions what begins none and is no instruction changes nothing. -/
lemma foldlM_step_of_left {rs : List Record}
    (h : ∀ r ∈ rs, r.instruction? = none ∧ r.begins = false) (done : List SourceFunction) :
    rs.foldlM step { done := done } = .ok { done := done } := by
  induction rs with
  | nil => rfl
  | cons r rs ih =>
    obtain ⟨⟨hr, hl⟩, hrs⟩ := List.forall_mem_cons.mp h
    refine foldlM_cons_eq_ok.mpr ⟨_, ?_, ih hrs⟩
    cases r with
    | label l => exact congrArg Except.ok (if_neg (Bool.eq_false_iff.mp hl))
    | directive d => rfl
    | instruction i => cases hr

end ExtractState

/-- A function label, and the records up to the first one that ends its function, give a function
of the unit. -/
lemma exists_isReadFrom {records front own back : List Record} {l : Label}
    (hrecords : records = front ++ .label l :: (own ++ back)) (hl : l.isFunction = true)
    (hown : ∀ r ∈ own, r.ends l = false) (hback : ∀ r ∈ back.head?, r.ends l = true)
    {functions : List SourceFunction} (h : extractFunctions records = .ok functions) :
    ∃ f ∈ functions, f.label = l.name ∧ IsReadFrom l own f := by
  obtain ⟨s, hfold, hfinish⟩ := bind_eq_ok.mp h
  rw [hrecords] at hfold
  obtain ⟨s₁, -, hfold⟩ := foldlM_append_eq_ok.mp hfold
  obtain ⟨⟨done, draft⟩, hlabel, hfold⟩ := foldlM_cons_eq_ok.mp hfold
  obtain rfl : draft = some (.begin l) := ExtractState.draft_of_label hl hlabel
  obtain ⟨s₂, hs₂, hfold⟩ := foldlM_append_eq_ok.mp hfold
  obtain ⟨d, hd, rfl⟩ := (ExtractState.foldlM_step_eq_ok hown (hasRead_begin l)).mp hs₂
  have hlabel := label_of_foldlM hd
  have hgives : ∀ {boundary f}, d.inPrologue = false → d.finish boundary = .ok f →
      f.label = l.name ∧ IsReadFrom l own f := fun hphase hf =>
    ⟨(Draft.label_of_finish hf).trans hlabel, d, _, hd, hphase, hf⟩
  cases back with
  | nil =>
    obtain rfl := pure_eq_ok.mp hfold
    rcases finish_eq_ok hfinish with ⟨hnone, -⟩ | ⟨e, f, he, hphase, hf, rfl⟩
    · cases hnone
    · obtain rfl := Option.some.inj he
      exact ⟨f, List.mem_reverse.mpr List.mem_cons_self, hgives hphase hf⟩
  | cons r back =>
    obtain ⟨s₃, hstep, hfold⟩ := foldlM_cons_eq_ok.mp hfold
    have hend : d.isEnd r = true := by
      rw [isEnd_eq_ends hlabel]
      exact hback r rfl
    simp only [ExtractState.step, hend, if_true] at hstep
    obtain ⟨hphase, f, hf, rfl⟩ := endDraft_eq_ok hstep
    refine ⟨f, ExtractState.mem_of_finish hfinish ?_, hgives hphase hf⟩
    exact foldlM_induction (fun s : ExtractState => f ∈ s.done)
      (fun _ _ _ hstep hmem => ExtractState.mem_done_of_step hstep hmem) hfold List.mem_cons_self

/-- Where what is left behind a function ends it, it is the only one of its unit. -/
lemma exists_finish_of_left {l : Label} {d : Draft} {f : SourceFunction} {back : List Record}
    (hlabel : d.function.label = l.name) (hphase : d.inPrologue = false)
    (hf : ∀ boundary, d.finish boundary = .ok f)
    (hback : ∀ r ∈ back, r.instruction? = none ∧ r.begins = false)
    (hends : ∀ r ∈ back.head?, r.ends l = true) :
    ∃ s : ExtractState, back.foldlM ExtractState.step { draft := some d } = .ok s ∧
      s.finish = .ok [f] := by
  cases back with
  | nil =>
    refine ⟨_, rfl, ?_⟩
    simp only [ExtractState.finish, hphase, hf]
    rfl
  | cons r rest =>
    obtain ⟨⟨-, hl⟩, hrest⟩ := List.forall_mem_cons.mp hback
    have hend : d.isEnd r = true := by
      rw [isEnd_eq_ends hlabel]
      exact hends r rfl
    exact ⟨_, foldlM_cons_eq_ok.mpr ⟨_, ExtractState.step_of_isEnd hend hl hphase hf [],
      ExtractState.foldlM_step_of_left hrest _⟩, rfl⟩

/-- A function that is left over is the only one of its unit, with plain directives at its end. -/
lemma extractFunctions_of_isReadFrom {l : Label} {front own back : List Record}
    {f : SourceFunction} (hf : IsReadFrom l own f) (hl : l.isFunction = true)
    (hfront : ∀ r ∈ front, r.instruction? = none ∧ r.begins = false)
    (hown : ∀ r ∈ own, r.ends l = false)
    (hback : ∀ r ∈ back, r.instruction? = none ∧ r.begins = false)
    (hplain : ∀ r ∈ back.takeWhile fun r => !r.ends l, r.isPlain = true) :
    ∃ ds : List Directive, (∀ d ∈ ds, Directive.isDataName d.name = false) ∧
      extractFunctions (front ++ .label l :: (own ++ back)) = .ok [f.withDirectives ds] := by
  obtain ⟨d, boundary, hd, hphase, hf⟩ := hf
  obtain ⟨ds, hds, hmore⟩ := Draft.exists_foldlM_of_isPlain hplain d
  refine ⟨ds, hds, ?_⟩
  -- The function now reaches over the plain directives behind its own records.
  have hown' : ∀ r ∈ own ++ back.takeWhile (fun r => !r.ends l), r.ends l = false := by
    intro r hr
    rcases List.mem_append.mp hr with hr | hr
    · exact hown r hr
    · simpa using List.mem_takeWhile_imp hr
  have hread : (own ++ back.takeWhile fun r => !r.ends l).foldlM ExtractState.step
      { draft := some (.begin l) } = .ok { draft := some (d.withDirectives ds) } :=
    (ExtractState.foldlM_step_eq_ok hown' (hasRead_begin l)).mpr
      ⟨_, foldlM_append_eq_ok.mpr ⟨d, hd, hmore⟩, rfl⟩
  have hlabel : d.function.label = l.name := label_of_foldlM hd
  have hleft : (back.dropWhile fun r => !r.ends l) ⊆ back := (List.dropWhile_sublist _).subset
  obtain ⟨s, hrest, hfinish⟩ := exists_finish_of_left (d := d.withDirectives ds) hlabel hphase
    (Draft.finish_withDirectives hf ds) (fun r hr => hback r (hleft hr))
    (head?_dropWhile_ends l back)
  refine bind_eq_ok.mpr ⟨s, foldlM_append_eq_ok.mpr ⟨{}, ?_, foldlM_cons_eq_ok.mpr
    ⟨{ draft := some (.begin l) }, ?_, ?_⟩⟩, hfinish⟩
  · exact ExtractState.foldlM_step_of_left hfront []
  · simp [ExtractState.step, ExtractState.outside, hl]
  · rw [← List.takeWhile_append_dropWhile (p := fun r => !r.ends l) (l := back),
      ← List.append_assoc]
    exact foldlM_append_eq_ok.mpr ⟨_, hread, hrest⟩

/-- A unit with one function left over has this function only, perhaps with plain directives at its
end, and the data of the whole unit. -/
theorem readAlone {records records' : List Record} {functions : List SourceFunction}
    {x : DataIndex} (hsectioned : IsSectioned records)
    (hfunctions : extractFunctions records = .ok functions)
    (hx : DataIndex.ofRecords records = .ok x) (hnodup : (functions.map (·.label)).Nodup)
    {f : SourceFunction} (hf : f ∈ functions) (h : IsAlone f.label records records') :
    ∃ ds : List Directive, (∀ d ∈ ds, Directive.isDataName d.name = false) ∧
      extractFunctions records' = .ok [f.withDirectives ds] ∧
      DataIndex.ofRecords records' = .ok x := by
  have hdata := DataIndex.ofRecords_of_isAlone h hx
  cases h with
  | @intro l front own back front' back' hl hname hown hback hfront' hback' hcode =>
    obtain ⟨g, hg, hlabel, hread⟩ := exists_isReadFrom rfl hl hown hback hfunctions
    obtain rfl : g = f := List.inj_on_of_nodup_map hnodup hg hf (hlabel.trans hname)
    have hplain := hback'.isPlain hsectioned hl hown hcode
    obtain ⟨ds, hds, hextract⟩ :=
      extractFunctions_of_isReadFrom hread hl hfront'.left hown hback'.left hplain
    exact ⟨ds, hds, hextract, hdata⟩

end AsmBridge
