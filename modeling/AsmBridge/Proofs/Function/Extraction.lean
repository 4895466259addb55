import AsmBridge.Source.Unit
import AsmBridge.Proofs.Function.Tally

/-!
# The functions of a unit and its records

Dividing a unit into functions neither loses nor duplicates, reorders or invents code. The records
of a unit are gaps, in which nothing happens, and extents, each of which begins with a function
label and reaches to the first record that ends the function (`Divided`). Every extent gives one
function, in order, and `IsExtracted` says what of the extent the function keeps. The main statement
is `extractFunctions_isExtracted`.

The reading of a unit is followed record by record: `Draft.HasRead` tells of a draft which records
it was made from, and `hasRead_record` that one record more keeps it so.
-/

namespace AsmBridge

/-- A function label and the records between it and the end of its function. -/
structure Extent where
  label : Label
  records : List Record

namespace Extent

/-- The instructions of an extent, in order. -/
def instructions (e : Extent) : List Instruction := e.records.filterMap (·.instruction?)

end Extent

/-- The record ends a function that begins with the label: a directive that gives the size of the
function or stands in another section than one of instructions, or a label that is a function label
itself or marks an end. -/
def Record.ends (l : Label) : Record → Bool
  | .label l' => l'.isFunctionEnd
  | .directive d =>
    (d.name == ".size" && d.argv.head? == some l.name) || !((d.sect.map Section.isText).getD false)
  | .instruction _ => false

/-- The record begins a function. -/
def Record.begins (r : Record) : Bool := (r.label?.map (·.isFunction)).getD false

/-- The records of a unit with its extents: before, between and behind them stand labels and
directives that begin no function. -/
inductive Divided : List Record → List Extent → Prop
  | nil : Divided [] []
  | gap {r : Record} {rest : List Record} {es : List Extent} (hr : r.instruction? = none)
      (hl : r.begins = false) (h : Divided rest es) : Divided (r :: rest) es
  | extent {l : Label} {rs rest : List Record} {es : List Extent} (hl : l.isFunction = true)
      (hrs : ∀ r ∈ rs, r.ends l = false) (hrest : ∀ r ∈ rest.head?, r.ends l = true)
      (h : Divided rest es) : Divided (.label l :: rs ++ rest) (⟨l, rs⟩ :: es)

/-- The instructions of a unit are those of its extents, one extent after another. -/
lemma Divided.instructions {rs : List Record} {es : List Extent} (h : Divided rs es) :
    rs.filterMap (·.instruction?) = (es.map (·.instructions)).flatten := by
  induction h with
  | nil => rfl
  | gap hr _ _ ih => rw [List.filterMap_cons_none hr, ih]
  | @extent l rs rest es _ _ _ _ ih =>
    rw [List.cons_append, List.filterMap_cons_none rfl, List.filterMap_append, ih]
    rfl

/-- The records begin a function with the given instructions, before which only marks of branch
targets stand. -/
def IsPrologue (is : List (String × List Operand)) (rs : List Record) : Prop :=
  ∃ marks js, rs.filterMap (·.instruction?) = marks ++ js ∧
    (∀ m ∈ marks, m.mnemonic = "endbr64") ∧
    List.Forall₂ (fun j i => j.isExactly i.1 i.2 = true) js is

/-- The instruction `push rbp`, by mnemonic and operands. -/
def pushFramePointer : String × List Operand := ("push", [.reg .rbp])

/-- The instruction `mov rbp, rsp`, by mnemonic and operands. -/
def setFramePointer : String × List Operand := ("mov", [.reg .rbp, .reg .rsp])

/-- The labels and directives among records. -/
def itemsBesides (rs : List Record) : List BodyItem :=
  (rs.filter (·.instruction?.isNone)).map Record.item

/-- The body of a function consists of what is kept of its records: the labels and directives up to
the end of the prologue, and behind it everything but returns and their teardowns. -/
def IsBody (rs : List Record) (body : List BodyItem) : Prop :=
  ∃ head tail, rs = head ++ tail ∧ IsPrologue [pushFramePointer, setFramePointer] head ∧
    Keeps (itemsBesides head) tail body

/-- What of an extent its function keeps. -/
structure IsExtracted (f : SourceFunction) (e : Extent) : Prop where
  label : f.label = e.label.name
  body : IsBody e.records f.body
  /-- No instruction is invented, duplicated or moved. -/
  sublist : f.instructions.Sublist e.instructions
  /-- Each return leaves an epilogue. -/
  returns : f.returns = e.instructions.countP (·.isRet)
  labels : f.body.filterMap (·.label?) = e.records.filterMap (·.label?)

/-! ## Prologues -/

lemma itemsBesides_append (rs rs' : List Record) :
    itemsBesides (rs ++ rs') = itemsBesides rs ++ itemsBesides rs' := by
  simp [itemsBesides]

/-- What does not look at instructions finds the same besides them. -/
lemma filterMap_itemsBesides {α : Type} {g : BodyItem → Option α}
    (hg : ∀ i, g (.instruction i) = none) (rs : List Record) :
    (itemsBesides rs).filterMap g = rs.filterMap fun r => g r.item := by
  induction rs with
  | nil => rfl
  | cons r rs ih =>
    rw [← List.singleton_append, itemsBesides_append, List.filterMap_append, ih,
      List.filterMap_append]
    cases r with
    | instruction i => simp [itemsBesides, Record.instruction?, Record.item, hg]
    | _ => rfl

/-- The instructions of a prologue are no returns. -/
lemma IsPrologue.countP_isRet {rs : List Record}
    (h : IsPrologue [pushFramePointer, setFramePointer] rs) :
    (rs.filterMap (·.instruction?)).countP (·.isRet) = 0 := by
  obtain ⟨marks, js, heq, hmarks, hjs⟩ := h
  rw [heq, List.countP_eq_zero]
  intro i hi
  rcases List.mem_append.mp hi with hi | hi
  · simp [Instruction.isRet, hmarks i hi]
  · obtain ⟨p, hp, hip⟩ := exists_of_mem_left hjs hi
    rcases List.mem_cons.mp hp with rfl | hp
    · simp [Instruction.isRet, Instruction.mnemonic_of_isExactly hip, pushFramePointer]
    · simp [Instruction.isRet, Instruction.mnemonic_of_isExactly hip, List.mem_singleton.mp hp,
        setFramePointer]

/-- A label or a directive more. -/
lemma IsPrologue.concat_item {is : List (String × List Operand)} {rs : List Record} {r : Record}
    (h : IsPrologue is rs) (hr : r.instruction? = none) : IsPrologue is (rs ++ [r]) := by
  obtain ⟨marks, js, heq, hmarks, hjs⟩ := h
  refine ⟨marks, js, ?_, hmarks, hjs⟩
  rw [List.filterMap_append, heq]
  simp [hr]

/-- An instruction of the prologue more. -/
lemma IsPrologue.concat_instruction {is : List (String × List Operand)} {rs : List Record}
    {i : Instruction} {p : String × List Operand} (h : IsPrologue is rs)
    (hi : i.isExactly p.1 p.2 = true) : IsPrologue (is ++ [p]) (rs ++ [.instruction i]) := by
  obtain ⟨marks, js, heq, hmarks, hjs⟩ := h
  refine ⟨marks, js ++ [i], ?_, hmarks, List.rel_append hjs (.cons hi .nil)⟩
  rw [List.filterMap_append, heq, List.append_assoc]
  rfl

/-- A mark of a branch target more. -/
lemma IsPrologue.concat_mark {rs : List Record} {i : Instruction} (h : IsPrologue [] rs)
    (hi : i.mnemonic = "endbr64") : IsPrologue [] (rs ++ [.instruction i]) := by
  obtain ⟨marks, js, heq, hmarks, hjs⟩ := h
  cases hjs
  refine ⟨marks ++ [i], [], ?_, ?_, .nil⟩
  · rw [List.filterMap_append, heq, List.append_nil, List.append_nil]
    rfl
  · intro m hm
    rcases List.mem_append.mp hm with hm | hm
    · exact hmarks m hm
    · rw [List.mem_singleton.mp hm]
      exact hi

/-! ## What a body says of its records -/

/-- What does not look at epilogues finds in a body a part of what it finds in the records. -/
lemma IsBody.filterMap_sublist {α : Type} {g : BodyItem → Option α}
    (he : ∀ e, g (.epilogue e) = none) {rs : List Record} {body : List BodyItem}
    (h : IsBody rs body) : (body.filterMap g).Sublist (rs.filterMap fun r => g r.item) := by
  obtain ⟨head, tail, rfl, -, hkeeps⟩ := h
  refine (hkeeps.filterMap_sublist he).trans ?_
  rw [List.filterMap_append, itemsBesides, List.filterMap_map]
  exact (List.filter_sublist.filterMap _).append_right _

/-- The function of a body keeps of its extent what it should. -/
lemma isExtracted_of_isBody {f : SourceFunction} {e : Extent} (hlabel : f.label = e.label.name)
    (h : IsBody e.records f.body) : IsExtracted f e := by
  refine ⟨hlabel, h, ?_, ?_, ?_⟩ <;> obtain ⟨head, tail, heq, hhead, hkeeps⟩ := h
  · have hsub := IsBody.filterMap_sublist (g := (·.instruction?)) (fun _ => rfl)
      ⟨head, tail, heq, hhead, hkeeps⟩
    simpa [Extent.instructions, SourceFunction.instructions] using hsub
  · have hnone : (itemsBesides head).countP (·.isEpilogue) = 0 := by
      rw [List.countP_eq_zero]
      intro b hb
      obtain ⟨r, -, rfl⟩ := List.mem_map.mp hb
      simp
    rw [SourceFunction.returns, hkeeps.countP_isEpilogue, hnone, Extent.instructions, heq,
      List.filterMap_append, List.countP_append, hhead.countP_isRet]
  · have hitems := hkeeps.filterMap (g := (·.label?)) (fun _ _ => rfl) (fun _ => rfl)
    rw [filterMap_itemsBesides (fun _ => rfl), ← List.filterMap_append, ← heq] at hitems
    simpa using hitems

/-! ## Reading record by record -/

/-- A draft is what has been read of a function: of its label and of the records behind it. -/
structure Draft.HasRead (l : Label) (rs : List Record) (d : Draft) : Prop where
  label : d.function.label = l.name
  body : match d.phase with
    | .fresh => IsPrologue [] rs ∧ d.function.body.reverse = itemsBesides rs
    | .pushed => IsPrologue [pushFramePointer] rs ∧ d.function.body.reverse = itemsBesides rs
    | _ => IsBody rs d.function.body.reverse

/-- A draft ends where its function does. -/
lemma isEnd_eq_ends {d : Draft} {l : Label} (h : d.function.label = l.name) (r : Record) :
    d.isEnd r = r.ends l := by
  cases r with
  | directive r => simp only [Draft.isEnd, Record.ends, h]
  | _ => rfl

/-- The draft of a label has read nothing yet. -/
lemma hasRead_begin (l : Label) : (Draft.begin l).HasRead l [] :=
  ⟨rfl, ⟨[], [], rfl, by simp, .nil⟩, rfl⟩

section Record

variable {l : Label} {rs : List Record} {d e : Draft}

/-- An instruction of the body. -/
lemma hasRead_instruction {i : Instruction} (hlabel : d.function.label = l.name)
    (hbody : IsBody rs d.function.body.reverse) (h : d.instruction i = .ok e) :
    e.HasRead l (rs ++ [.instruction i]) := by
  obtain ⟨head, tail, rfl, hhead, hkeeps⟩ := hbody
  obtain ⟨d', hscan, h⟩ := bind_eq_ok.mp h
  have hscan := scans_of_scan hscan
  rw [← hscan.body] at hkeeps
  rw [List.append_assoc]
  split at h
  · rename_i hret
    rw [Draft.close] at h
    split at h
    · rename_i rest hrest
      rw [← Except.ok.inj h]
      refine ⟨hscan.label.trans hlabel, head, _, rfl, hhead, ?_⟩
      rw [List.reverse_cons]
      exact .ret hkeeps hret (withoutTeardown_of_search hrest)
    · cases h
  · rename_i hret
    rw [← pure_eq_ok.mp h]
    have hbody : IsBody (head ++ (tail ++ [.instruction i]))
        (d'.push (.instruction i)).function.body.reverse := by
      refine ⟨head, _, rfl, hhead, ?_⟩
      rw [Draft.push, List.reverse_cons]
      exact .record hkeeps (by rintro j ⟨⟩; simpa using hret)
    refine ⟨hscan.label.trans hlabel, ?_⟩
    cases Draft.isTerminator i <;> exact hbody

/-- An instruction before the body. -/
lemma hasRead_prologue {i : Instruction} (hd : d.HasRead l rs) (h : d.prologue i = .ok e) :
    e.HasRead l (rs ++ [.instruction i]) := by
  obtain ⟨hlabel, hbody⟩ := hd
  have hitems : itemsBesides (rs ++ [.instruction i]) = itemsBesides rs := by
    rw [itemsBesides_append]
    exact List.append_nil _
  rw [Draft.prologue] at h
  split_ifs at h with hmark hpush hmov
  · obtain rfl := Except.ok.inj h
    rw [hmark.1] at hbody
    refine ⟨hlabel, ?_⟩
    rw [hmark.1, hitems]
    exact ⟨hbody.1.concat_mark hmark.2, hbody.2⟩
  · obtain rfl := Except.ok.inj h
    rw [hpush.1] at hbody
    refine ⟨hlabel, ?_⟩
    rw [hitems]
    exact ⟨hbody.1.concat_instruction (p := pushFramePointer) hpush.2, hbody.2⟩
  · obtain rfl := Except.ok.inj h
    rw [hmov.1] at hbody
    refine ⟨hlabel, rs ++ [.instruction i], [], (List.append_nil _).symm, ?_, ?_⟩
    · exact hbody.1.concat_instruction (p := setFramePointer) hmov.2
    · rw [hitems, ← hbody.2]
      exact .nil

/-- A label or a directive. -/
lemma hasRead_item {r : Record} {p : Phase} (hd : d.HasRead l rs) (hr : r.instruction? = none)
    (hp : p = d.phase ∨ (d.phase = .ended ∧ p = .running)) :
    ({ d.push r.item with phase := p } : Draft).HasRead l (rs ++ [r]) := by
  obtain ⟨hlabel, hbody⟩ := hd
  have hitems : itemsBesides (rs ++ [r]) = itemsBesides rs ++ [r.item] := by
    rw [itemsBesides_append]
    simp [itemsBesides, hr]
  have hkept : IsBody rs d.function.body.reverse →
      IsBody (rs ++ [r]) (d.push r.item).function.body.reverse := by
    rintro ⟨head, tail, rfl, hhead, hkeeps⟩
    refine ⟨head, tail ++ [r], List.append_assoc _ _ _, hhead, ?_⟩
    rw [Draft.push, List.reverse_cons]
    exact .record hkeeps (by simp [hr])
  refine ⟨hlabel, ?_⟩
  rcases hp with rfl | ⟨hended, rfl⟩
  · cases hphase : d.phase <;> rw [hphase] at hbody
    · refine ⟨hbody.1.concat_item hr, ?_⟩
      rw [hitems, ← hbody.2]
      exact List.reverse_cons
    · refine ⟨hbody.1.concat_item hr, ?_⟩
      rw [hitems, ← hbody.2]
      exact List.reverse_cons
    · exact hkept hbody
    · exact hkept hbody
  · rw [hended] at hbody
    exact hkept hbody

/-- A record that belongs to the function. -/
lemma hasRead_record {r : Record} (hd : d.HasRead l rs) (h : d.record r = .ok e) :
    e.HasRead l (rs ++ [r]) := by
  cases r with
  | instruction i =>
    rw [Draft.record] at h
    split at h
    · exact hasRead_prologue hd h
    · rename_i hphase
      have hbody := hd.body
      refine hasRead_instruction hd.label ?_ h
      cases hp : d.phase <;> simp [Draft.inPrologue, hp] at hphase hbody <;> exact hbody
  | label l' =>
    rw [Draft.record] at h
    obtain rfl := Except.ok.inj h
    split
    · rename_i hended
      exact hasRead_item hd rfl (.inr ⟨hended, rfl⟩)
    · exact hasRead_item (p := d.phase) hd rfl (.inl rfl)
  | directive r =>
    rw [Draft.record] at h
    obtain rfl := Except.ok.inj h
    exact hasRead_item (p := d.phase) hd rfl (.inl rfl)

/-- A draft that is finished gives the function of its records. -/
lemma isExtracted_of_finish {boundary : Boundary} {f : SourceFunction} (hd : d.HasRead l rs)
    (hphase : d.inPrologue = false) (h : d.finish boundary = .ok f) : IsExtracted f ⟨l, rs⟩ := by
  rw [Draft.finish] at h
  split_ifs at h with hrunning hwritable
  rw [← Except.ok.inj h]
  refine isExtracted_of_isBody hd.label ?_
  have hbody := hd.body
  cases hp : d.phase <;> simp [Draft.inPrologue, hp] at hphase hbody <;> exact hbody

end Record

/-! ## Reading a unit -/

/-- What is left to say of a unit when a part of it has been read: outside of functions the rest is
divided into extents, each with its function; inside of one, the rest begins with what belongs to
that function. -/
def ExtractState.Yields (s : ExtractState) (rest : List Record) (functions : List SourceFunction) :
    Prop :=
  match s.draft with
  | none => ∃ es fs, functions = s.done.reverse ++ fs ∧ Divided rest es ∧
      List.Forall₂ IsExtracted fs es
  | some d => ∀ l rs, d.HasRead l rs → ∃ more rest' f es fs, rest = more ++ rest' ∧
      (∀ r ∈ more, r.ends l = false) ∧ (∀ r ∈ rest'.head?, r.ends l = true) ∧
      IsExtracted f ⟨l, rs ++ more⟩ ∧ functions = s.done.reverse ++ f :: fs ∧ Divided rest' es ∧
      List.Forall₂ IsExtracted fs es

/-- A function label begins an extent. -/
lemma yields_begin {l : Label} {done : List SourceFunction} {rest : List Record}
    {functions : List SourceFunction} (hl : l.isFunction = true)
    (h : ExtractState.Yields { done := done, draft := some (.begin l) } rest functions) :
    ExtractState.Yields { done := done } (.label l :: rest) functions := by
  obtain ⟨more, rest', f, es, fs, rfl, hmore, hrest, hf, rfl, hdivided, hfs⟩ :=
    h l [] (hasRead_begin l)
  exact ⟨⟨l, more⟩ :: es, f :: fs, rfl, .extent hl hmore hrest hdivided, .cons hf hfs⟩

/-- A record that begins no function and is no instruction belongs to a gap. -/
lemma yields_gap {r : Record} {done : List SourceFunction} {rest : List Record}
    {functions : List SourceFunction} (hr : r.instruction? = none) (hl : r.begins = false)
    (h : ExtractState.Yields { done := done } rest functions) :
    ExtractState.Yields { done := done } (r :: rest) functions := by
  obtain ⟨es, fs, rfl, hdivided, hfs⟩ := h
  exact ⟨es, fs, rfl, .gap hr hl hdivided, hfs⟩

section Unit

variable {s s' : ExtractState} {r : Record} {rest : List Record}
  {functions : List SourceFunction}

/-- A record outside of functions. -/
lemma yields_of_outside (hs : s.draft = none) (h : s.outside r = .ok s')
    (hrest : s'.Yields rest functions) : s.Yields (r :: rest) functions := by
  obtain ⟨done, draft⟩ := s
  cases hs
  cases r with
  | label l =>
    obtain rfl := Except.ok.inj h
    split at hrest
    · rename_i hl
      exact yields_begin hl hrest
    · rename_i hl
      exact yields_gap rfl (Bool.eq_false_iff.mpr hl) hrest
  | directive d =>
    obtain rfl := Except.ok.inj h
    exact yields_gap rfl rfl hrest
  | instruction i => cases h

/-- A record that ends a function. -/
lemma yields_of_endDraft {d : Draft} (hs : s.draft = some d) (hr : d.isEnd r = true)
    (h : s.endDraft d r = .ok s') (hrest : s'.Yields rest functions) :
    s.Yields (r :: rest) functions := by
  obtain ⟨hphase, f, hf, rfl⟩ := endDraft_eq_ok h
  -- The record may begin the next function.
  have hnext : ExtractState.Yields { done := f :: s.done } (r :: rest) functions := by
    cases r with
    | label l =>
      rw [Record.begun?] at hrest
      cases hl : l.isFunction with
      | true =>
        simp only [hl, if_true] at hrest
        exact yields_begin hl hrest
      | false =>
        simp only [hl, Bool.false_eq_true, if_false] at hrest
        exact yields_gap rfl hl hrest
    | directive d => exact yields_gap rfl rfl hrest
    | instruction i => cases hr
  obtain ⟨es, fs, rfl, hdivided, hfs⟩ := hnext
  rw [ExtractState.Yields, hs]
  intro l rs hd
  have hends : r.ends l = true := (isEnd_eq_ends hd.label r).symm.trans hr
  refine ⟨[], r :: rest, f, es, fs, rfl, by simp, ?_, ?_, by simp, hdivided, hfs⟩
  · rintro r' ⟨⟩
    exact hends
  · rw [List.append_nil]
    exact isExtracted_of_finish hd hphase hf

/-- A record of a function. -/
lemma yields_of_record {d e : Draft} (hs : s.draft = some d) (hr : d.isEnd r = false)
    (h : d.record r = .ok e)
    (hrest : ExtractState.Yields { s with draft := some e } rest functions) :
    s.Yields (r :: rest) functions := by
  rw [ExtractState.Yields, hs]
  intro l rs hd
  have hends : r.ends l = false := (isEnd_eq_ends hd.label r).symm.trans hr
  obtain ⟨more, rest', f, es, fs, rfl, hmore, hhead, hf, rfl, hdivided, hfs⟩ :=
    hrest l (rs ++ [r]) (hasRead_record hd h)
  refine ⟨r :: more, rest', f, es, fs, rfl, ?_, hhead, ?_, rfl, hdivided, hfs⟩
  · intro r' hr'
    rcases List.mem_cons.mp hr' with rfl | hr'
    · exact hends
    · exact hmore r' hr'
  · simpa using hf

/-- The end of the unit. -/
lemma yields_of_finish (h : s.finish = .ok functions) : s.Yields [] functions := by
  rw [ExtractState.Yields]
  rcases finish_eq_ok h with ⟨hs, rfl⟩ | ⟨d, f, hs, hphase, hf, rfl⟩
  · rw [hs]
    exact ⟨[], [], (List.append_nil _).symm, .nil, .nil⟩
  · rw [hs]
    intro l rs hd
    refine ⟨[], [], f, [], [], rfl, by simp, by simp, ?_, by simp, .nil, .nil⟩
    rw [List.append_nil]
    exact isExtracted_of_finish hd hphase hf

/-- A state from which the rest of a unit gives functions yields them. -/
lemma yields_of_foldlM (h : rest.foldlM ExtractState.step s = .ok s')
    (hfinish : s'.finish = .ok functions) : s.Yields rest functions := by
  induction rest generalizing s with
  | nil =>
    obtain rfl := pure_eq_ok.mp h
    exact yields_of_finish hfinish
  | cons r rest ih =>
    rw [List.foldlM_cons] at h
    obtain ⟨s₁, hstep, h⟩ := bind_eq_ok.mp h
    have hrest := ih h
    rw [ExtractState.step] at hstep
    cases hs : s.draft with
    | none =>
      rw [hs] at hstep
      exact yields_of_outside hs hstep hrest
    | some d =>
      rw [hs] at hstep
      cases hr : d.isEnd r with
      | true => exact yields_of_endDraft hs hr (by simpa [hr] using hstep) hrest
      | false =>
        simp only [hr, Bool.false_eq_true, if_false] at hstep
        obtain ⟨e, he, rfl⟩ := map_eq_ok.mp hstep
        exact yields_of_record hs hr he hrest

end Unit

/-- A text has functions with a property if what is read from it passes the test for it. -/
lemma exists_functions_of_any {text : String} {p : List SourceFunction → Prop} [DecidablePred p]
    (h : (Source.readUnit text >>= extractFunctions).toOption.any
      (fun fs => decide (p fs)) = true) :
    ∃ records functions, Source.readUnit text = .ok records ∧
      extractFunctions records = .ok functions ∧ p functions := by
  obtain ⟨functions, hfunctions, hp⟩ := exists_ok_of_any h
  obtain ⟨records, hread, hextract⟩ := bind_eq_ok.mp hfunctions
  exact ⟨records, functions, hread, hextract, hp⟩

/-- The functions of a unit are those of its extents. -/
lemma exists_extents {records : List Record} {functions : List SourceFunction}
    (h : extractFunctions records = .ok functions) :
    ∃ extents, Divided records extents ∧ List.Forall₂ IsExtracted functions extents := by
  obtain ⟨s, hfold, hfinish⟩ := bind_eq_ok.mp h
  obtain ⟨es, fs, rfl, hdivided, hfs⟩ :
      ∃ es fs, functions = [] ++ fs ∧ Divided records es ∧ List.Forall₂ IsExtracted fs es :=
    yields_of_foldlM hfold hfinish
  exact ⟨es, hdivided, hfs⟩

/-- An instruction of a function is one of the unit. -/
lemma mem_of_extractFunctions {records : List Record} {functions : List SourceFunction}
    (h : extractFunctions records = .ok functions) {f : SourceFunction} (hf : f ∈ functions)
    {i : Instruction} (hi : i ∈ f.instructions) : .instruction i ∈ records := by
  obtain ⟨extents, hdivided, hfs⟩ := exists_extents h
  obtain ⟨e, he, hfe⟩ := exists_of_mem_left hfs hf
  have hmem : i ∈ records.filterMap (·.instruction?) := by
    rw [hdivided.instructions]
    exact List.mem_flatten_of_mem (List.mem_map_of_mem he) (hfe.sublist.subset hi)
  obtain ⟨r, hr, hri⟩ := List.mem_filterMap.mp hmem
  cases r with
  | instruction j => exact Option.some.inj hri ▸ hr
  | label l => cases hri
  | directive d => cases hri

/-- The functions of a unit are its extents, one for one and in order. All instructions of the unit
belong to extents, and of its extent each function keeps everything but the prologue, the returns
and, for each return, one teardown of the same function. -/
theorem extractFunctions_isExtracted {records : List Record} {functions : List SourceFunction}
    (h : extractFunctions records = .ok functions) :
    ∃ extents, Divided records extents ∧
      records.filterMap (·.instruction?) = (extents.map (·.instructions)).flatten ∧
      List.Forall₂ IsExtracted functions extents := by
  obtain ⟨extents, hdivided, hfs⟩ := exists_extents h
  exact ⟨extents, hdivided, hdivided.instructions, hfs⟩

/-- Two functions, the first of which returns at two places, once with the upper halves of the
vector registers cleared behind the teardown. -/
theorem extractFunctions_isExtracted_of_two :
    let text := String.join [
      "f: endbr64\n", "push rbp\n", "mov rbp, rsp\n", "test rdi, rdi\n", "je .L1\n",
      "mov rsp, rbp\n", "pop rbp\n", "ret\n", ".L1: leave\n", "vzeroupper\n", "ret\n",
      "g: push rbp\n", "mov rbp, rsp\n", "mov rax, rdi\n", "pop rbp\n", "ret\n"]
    ∃ records functions, Source.readUnit text = .ok records ∧
      extractFunctions records = .ok functions ∧
      functions.map (fun f => f.instructions.map (·.text)) =
        [["test rdi, rdi", "je .L1", "vzeroupper"], ["mov rax, rdi"]] ∧
      ∃ extents, Divided records extents ∧
        records.filterMap (·.instruction?) = (extents.map (·.instructions)).flatten ∧
        List.Forall₂ IsExtracted functions extents := by
  intro text
  obtain ⟨records, functions, hread, hextract, htexts⟩ :
      ∃ records functions, Source.readUnit text = .ok records ∧
        extractFunctions records = .ok functions ∧
        functions.map (fun f => f.instructions.map (·.text)) =
          [["test rdi, rdi", "je .L1", "vzeroupper"], ["mov rax, rdi"]] :=
    exists_functions_of_any (by decide +kernel)
  exact ⟨records, functions, hread, hextract, htexts, extractFunctions_isExtracted hextract⟩

end AsmBridge
