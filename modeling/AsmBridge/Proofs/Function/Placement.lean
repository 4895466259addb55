import AsmBridge.Proofs.Function.Extents
import AsmBridge.Proofs.Source.Placement

/-!
# Where functions stand

A function is read alike of records that differ in their places only, but for the places of its
records (`IsReadFrom.exists_of_unplaced`), and such records have the same extents
(`Divided.exists_of_unplaced`). So the functions of two units of which the second one begins with a
switch to the section of instructions and a function label are the functions of the two together
(`exists_extractFunctions_append`).
-/

namespace AsmBridge

/-! ## Functions without their place -/

def BodyItem.unplaced : BodyItem → BodyItem
  | .label l => .label l.unplaced
  | .directive d => .directive d.unplaced
  | .instruction i => .instruction i.unplaced
  | .epilogue _ => .epilogue {}

/-- The function without its line and the places of its records. -/
def SourceFunction.unplaced (f : SourceFunction) : SourceFunction :=
  { f with line := none, body := f.body.map (·.unplaced), dynamic := f.dynamic.map (·.unplaced) }

def Draft.unplaced (d : Draft) : Draft := { d with function := d.function.unplaced }

@[simp] lemma Instruction.unplaced_operands (i : Instruction) :
    i.unplaced.operands = i.operands := rfl

/-- Both fail, for whatever reason. -/
def BothFail (_ _ : Fault) : Prop := True

namespace Draft

lemma withoutMove_unplaced (body : List BodyItem) :
    withoutMove (body.map (·.unplaced)) = (withoutMove body).map (·.unplaced) := by
  induction body with
  | nil => rfl
  | cons b body ih =>
    cases b with
    | instruction i =>
      exact ite_eq_apply_ite Iff.rfl rfl rfl
    | _ => exact congrArg _ ih

lemma withoutTeardown?_unplaced (body : List BodyItem) :
    withoutTeardown? (body.map (·.unplaced)) =
      (withoutTeardown? body).map (List.map (·.unplaced)) := by
  have hcons : ∀ (b : BodyItem) {t : Option (List BodyItem)} {body' : List BodyItem},
      withoutTeardown? body' = t.map (List.map (·.unplaced)) →
      (withoutTeardown? body').map (b.unplaced :: ·) =
        (t.map (b :: ·)).map (List.map (·.unplaced)) := by
    rintro b t body' h
    rw [h]
    cases t <;> rfl
  induction body with
  | nil => rfl
  | cons b body ih =>
    cases b with
    | instruction i =>
      exact ite_eq_apply_ite Iff.rfl (hcons (.instruction i) ih) <| ite_eq_apply_ite Iff.rfl rfl <|
        ite_eq_apply_ite Iff.rfl (congrArg some (withoutMove_unplaced body)) rfl
    | label l => exact hcons (.label l) ih
    | directive d => exact hcons (.directive d) ih
    | epilogue e => exact hcons (.epilogue e) ih

variable (d : Draft) (i : Instruction)

lemma mirrors_scanSetup :
    Mirrors BothFail Draft.unplaced (d.scanSetup i) (d.unplaced.scanSetup i.unplaced) := by
  have hend : Mirrors BothFail Draft.unplaced (.ok { d with inSetup := false }) _ := .ok _
  unfold scanSetup
  refine .ite Iff.rfl (fun _ => .ok d) fun _ => .ite Iff.rfl (fun _ => ?_) fun _ =>
    .ite Iff.rfl (fun _ => ?_) fun _ => hend
  · exact .ok { d with function := { d.function with pushes := d.function.pushes + 1 } }
  · rw [Instruction.unplaced_operands]
    split
    · refine .ite Iff.rfl (fun _ => ?_) fun _ => hend
      exact .ok { d with function := { d.function with realign := _ } }
    · exact .ite Iff.rfl (fun _ => .error trivial) fun _ => hend
    · exact hend

lemma mirrors_scan :
    Mirrors BothFail Draft.unplaced (d.scan i) (d.unplaced.scan i.unplaced) := by
  have hstep : stackStep i.unplaced = stackStep i := rfl
  unfold scan
  dsimp only
  rw [hstep]
  split
  · exact .ok { d with function := { d.function with locals := _ } }
  · have hdynamic : (d.function.dynamic.map (·.unplaced)).or (some i.unplaced) =
        (d.function.dynamic.or (some i)).map (·.unplaced) := by
      cases d.function.dynamic <;> rfl
    have h : Mirrors BothFail Draft.unplaced (.ok { d with function := { d.function with
        dynamic := d.function.dynamic.or (some i) } }) _ := .ok _
    rwa [Draft.unplaced, SourceFunction.unplaced, ← hdynamic] at h
  · exact mirrors_scanSetup d i

lemma mirrors_close :
    Mirrors BothFail Draft.unplaced (d.close i) (d.unplaced.close i.unplaced) := by
  have hteardown : withoutTeardown? d.unplaced.function.body = _ :=
    withoutTeardown?_unplaced d.function.body
  unfold close
  rw [hteardown]
  cases withoutTeardown? d.function.body with
  | none => exact .error trivial
  | some body =>
    exact .ok { d with
      function := { d.function with body := .epilogue { line := i.line } :: body }
      phase := .ended }

/-- A record is added alike wherever it stands. -/
lemma mirrors_record (r : Record) :
    Mirrors BothFail Draft.unplaced (d.record r) (d.unplaced.record r.unplaced) := by
  cases r with
  | label l =>
    rw [record, Record.unplaced, record]
    refine (congrArg (Mirrors BothFail Draft.unplaced _) ?_).mpr (.ok _)
    exact congrArg Except.ok (ite_eq_apply_ite (g := Draft.unplaced) Iff.rfl rfl rfl)
  | directive r => exact .ok (d.push (.directive r))
  | instruction i =>
    refine .ite Iff.rfl (fun _ => ?_) fun _ => (mirrors_scan d i).bind fun e _ =>
      .ite Iff.rfl (fun _ => mirrors_close e i) fun _ => ?_
    · exact .ite Iff.rfl (fun _ => .ok d) fun _ => .ite Iff.rfl (fun _ => .ok { d with
        phase := .pushed }) fun _ => .ite Iff.rfl (fun _ => .ok { d with phase := .running })
        fun _ => .error trivial
    · exact .ok { e.push (.instruction i) with
        phase := if isTerminator i then .ended else .running }

/-- Whether a function may end does not depend on where it stands. -/
lemma mirrors_finish (boundary boundary' : Boundary) :
    Mirrors BothFail SourceFunction.unplaced (d.finish boundary) (d.unplaced.finish boundary') := by
  refine .ite Iff.rfl (fun _ => .error trivial) fun _ => .ite Iff.rfl (fun _ => .error trivial)
    fun _ => ?_
  have hbody : (d.function.body.map (·.unplaced)).reverse =
      d.function.body.reverse.map (·.unplaced) := List.map_reverse.symm
  have h : Mirrors BothFail SourceFunction.unplaced
    (.ok { d.function with body := d.function.body.reverse }) _ := .ok _
  rwa [SourceFunction.unplaced, ← hbody] at h

end Draft

/-! ## Reading functions -/

/-- The second extent is the first one elsewhere. -/
structure Extent.IsMoved (e e' : Extent) : Prop where
  label : e'.label.unplaced = e.label.unplaced
  records : e'.records.map (·.unplaced) = e.records.map (·.unplaced)

/-- A function is read alike wherever it stands. -/
lemma IsReadFrom.exists_of_isMoved {e e' : Extent} {f : SourceFunction}
    (h : IsReadFrom e.label e.records f) (he : e.IsMoved e') :
    ∃ f', IsReadFrom e'.label e'.records f' ∧ f'.unplaced = f.unplaced := by
  obtain ⟨d, boundary, hd, hphase, hf⟩ := h
  have hrecords := fun e : Extent => Mirrors.foldlM (E := BothFail) (g := Record.unplaced)
    (l := e.records) (fun d r _ => Draft.mirrors_record d r) (.begin e.label)
  have hbegin : (Draft.begin e'.label).unplaced = (Draft.begin e.label).unplaced :=
    congrArg Draft.begin he.label
  have hmoved := hrecords e'
  rw [he.records, hbegin] at hmoved
  obtain ⟨d', hd', heq⟩ := (hrecords e).exists_ok_of_ok hmoved hd
  have hfinish := d'.mirrors_finish boundary boundary
  rw [heq] at hfinish
  obtain ⟨f', hf', hunplaced⟩ := (d.mirrors_finish boundary boundary).exists_ok_of_ok hfinish hf
  have hphase' : d'.unplaced.inPrologue = d.unplaced.inPrologue := congrArg Draft.inPrologue heq
  exact ⟨f', ⟨d', boundary, hd', hphase'.trans hphase, hf'⟩, hunplaced⟩

namespace Record

variable {r r' : Record}

lemma ends_of_unplaced (h : r'.unplaced = r.unplaced) {l l' : Label}
    (hl : l'.unplaced = l.unplaced) : r'.ends l' = r.ends l := by
  have hends : ∀ (r : Record) (l : Label), r.unplaced.ends l.unplaced = r.ends l :=
    fun r l => by cases r <;> rfl
  rw [← hends, h, hl, hends]

lemma begins_of_unplaced (h : r'.unplaced = r.unplaced) : r'.begins = r.begins := by
  have hbegins : ∀ r : Record, r.unplaced.begins = r.begins := fun r => by cases r <;> rfl
  rw [← hbegins, h, hbegins]

lemma instruction?_of_unplaced (h : r'.unplaced = r.unplaced) (hr : r.instruction? = none) :
    r'.instruction? = none := by
  cases r with
  | instruction i => cases hr
  | _ =>
    cases r' with
    | instruction j => cases h
    | _ => rfl

lemma exists_label_of_unplaced {l : Label} (h : r'.unplaced = (Record.label l).unplaced) :
    ∃ l' : Label, r' = .label l' ∧ l'.unplaced = l.unplaced := by
  cases r' with
  | label l' => exact ⟨l', rfl, Record.label.inj h⟩
  | _ => cases h

lemma exists_directive_of_unplaced {d : Directive}
    (h : r'.unplaced = (Record.directive d).unplaced) :
    ∃ d' : Directive, r' = .directive d' ∧ d'.unplaced = d.unplaced := by
  cases r' with
  | directive d' => exact ⟨d', rfl, Record.directive.inj h⟩
  | _ => cases h

end Record

/-- A directive before a unit belongs to no extent. -/
lemma Divided.of_directive {d : Directive} {records : List Record} {es : List Extent}
    (h : Divided (.directive d :: records) es) : Divided records es := by
  cases h with
  | gap _ _ h => exact h

/-- A unit is divided alike wherever it stands. -/
lemma Divided.exists_of_unplaced {records records' : List Record} {es : List Extent}
    (h : Divided records es) (heq : records'.map (·.unplaced) = records.map (·.unplaced)) :
    ∃ es', Divided records' es' ∧ List.Forall₂ Extent.IsMoved es es' := by
  induction h generalizing records' with
  | nil =>
    obtain rfl := List.map_eq_nil_iff.mp heq
    exact ⟨[], .nil, .nil⟩
  | @gap r rest es hr hbegins h ih =>
    obtain ⟨r', rest', rfl, hr', hrest⟩ := List.map_eq_cons_iff.mp heq
    obtain ⟨es', hdivided, hes⟩ := ih hrest
    exact ⟨es', .gap (Record.instruction?_of_unplaced hr' hr)
      ((Record.begins_of_unplaced hr').trans hbegins) hdivided, hes⟩
  | @extent l own rest es hl hown hrest h ih =>
    rw [List.cons_append, List.map_cons, List.map_append] at heq
    obtain ⟨r', records', rfl, hr', heq⟩ := List.map_eq_cons_iff.mp heq
    obtain ⟨own', rest', rfl, hown', hrest'⟩ := List.map_eq_append_iff.mp heq
    obtain ⟨l', rfl, hl'⟩ := Record.exists_label_of_unplaced hr'
    obtain ⟨es', hdivided, hes⟩ := ih hrest'
    have hown'' := map_eq_map_iff_forall₂.mp hown'
    have hrest'' := map_eq_map_iff_forall₂.mp hrest'
    have hfunction : l'.unplaced.isFunction = l.unplaced.isFunction := congrArg _ hl'
    refine ⟨⟨l', own'⟩ :: es', .extent (hfunction.trans hl) ?_ ?_ hdivided,
      .cons ⟨hl', hown'⟩ hes⟩
    · intro r' hr'
      obtain ⟨r, hr, heq⟩ := exists_of_mem_left hown'' hr'
      exact (Record.ends_of_unplaced heq hl').trans (hown r hr)
    · intro r' hr'
      cases hrest'' with
      | nil => cases hr'
      | cons hfirst _ =>
        obtain rfl := Option.some.inj hr'
        exact (Record.ends_of_unplaced hfirst hl').trans (hrest _ rfl)

/-- The functions of a unit behind which another one stands, wherever that was read, are those of
the one and of the other. The directive between the two may go to the last function of the first
one. -/
lemma exists_extractFunctions_append {records records' rest : List Record} {d : Directive}
    {l : Label} {fs gs : List SourceFunction} (hfs : extractFunctions records = .ok fs)
    (hgs : extractFunctions (.directive d :: .label l :: rest) = .ok gs)
    (hl : l.isFunction = true)
    (heq : records'.map (·.unplaced) =
      (Record.directive d :: .label l :: rest).map (·.unplaced)) :
    ∃ fs' gs', extractFunctions (records ++ records') = .ok (fs' ++ gs') ∧
      List.Forall₂ (fun f f' => ∃ ds : List Directive, (∀ d' ∈ ds, d'.name = d.name) ∧
        f' = f.withDirectives ds) fs fs' ∧
      gs'.map (·.unplaced) = gs.map (·.unplaced) := by
  obtain ⟨es, hes, hfs⟩ := extractFunctions_eq_ok_iff.mp hfs
  obtain ⟨es', hes', hgs⟩ := extractFunctions_eq_ok_iff.mp hgs
  obtain ⟨r₁, records', rfl, hr₁, hrecords⟩ := List.map_eq_cons_iff.mp heq
  obtain ⟨r₂, rest', rfl, hr₂, -⟩ := List.map_eq_cons_iff.mp hrecords
  obtain ⟨d', rfl, hd'⟩ := Record.exists_directive_of_unplaced hr₁
  obtain ⟨l', rfl, hl'⟩ := Record.exists_label_of_unplaced hr₂
  have hfunction : l'.isFunction = true := (congrArg Label.isFunction hl' :).trans hl
  have hname : d'.name = d.name := (congrArg Directive.name hd' :)
  obtain ⟨es'', hes'', hmoved⟩ := hes'.of_directive.exists_of_unplaced hrecords
  obtain ⟨es₁, hends, hdivided⟩ := hes.append (d := d') hfunction hes''
  have hfirst : ∀ (f : SourceFunction) (e e₁ : Extent), IsReadFrom e.label e.records f →
      e.EndsIn d' e₁ → ∃ f', (∃ ds : List Directive, (∀ d' ∈ ds, d'.name = d.name) ∧
        f' = f.withDirectives ds) ∧ IsReadFrom e₁.label e₁.records f' := by
    intro f e e₁ hf he
    obtain ⟨ds, hds, hf'⟩ := hf.endsIn he
    exact ⟨_, ⟨ds, fun d'' hd'' => hds d'' hd'' ▸ hname, rfl⟩, hf'⟩
  have hsecond : ∀ (g : SourceFunction) (e e' : Extent), IsReadFrom e.label e.records g →
      e.IsMoved e' → ∃ g' : SourceFunction, g'.unplaced = g.unplaced ∧
        IsReadFrom e'.label e'.records g' :=
    fun g e e' hg he => (hg.exists_of_isMoved he).imp fun g' hg' => hg'.symm
  obtain ⟨fs', hsame, hfs'⟩ := exists_forall₂_of_forall₂ hfirst hfs hends
  obtain ⟨gs', hunplaced, hgs'⟩ := exists_forall₂_of_forall₂ hsecond hgs hmoved
  refine ⟨fs', gs', hdivided.extractFunctions_eq_ok_iff.mpr (List.rel_append hfs' hgs'), hsame, ?_⟩
  exact map_eq_map_iff_forall₂.mpr (hunplaced.flip.imp fun _ _ h => h)

end AsmBridge
