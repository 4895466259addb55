import AsmBridge.Proofs.Data.Labels
import AsmBridge.Source.Unit
import Mathlib.Data.List.Induction

/-!
# Data that cannot be read

A data directive that cannot be read leaves a problem in its blob, and every label of the blob is
answered with it. As a blob counts as empty until it has data, a label behind such a directive may
join the blob and with it the problem: a label is undecodable exactly if a directive in its extent
cannot be read, or one behind an earlier label of read-only data, with neither a switch of sections
nor any data between that label and this one (`DataIndex.ofRecords_confines`). The index as a whole
is given up exactly if an instruction stands in read-only data, an alignment or an entity size
cannot be read, or the bytes of a directive behind a label stop.
-/

namespace AsmBridge.DataIndex

/-! ## Records -/

/-- The records end in a part of the blob that a label of read-only data names, and it has the
property. -/
def EndsIn (P : List Record → Prop) (front : List Record) : Prop :=
  ∃ before l after, front = before ++ .label l :: after ∧
    Section.isReadOnly (l.sect.getD "") = true ∧ P after

/-- Data behind the records belong to a label: no switch of sections stands behind the last one. -/
def IsLabelled (front : List Record) : Prop :=
  EndsIn (fun after => ∀ r ∈ after, role r ≠ .switch) front

/-- The directive stands behind a label of read-only data, and up to the end of the records neither
a switch nor any data come. -/
def IsAhead (front : List Record) (d : Directive) : Prop :=
  EndsIn (fun after => (∀ r ∈ after, isQuiet r = true) ∧ d ∈ after.filterMap directive?) front

/-- The record, behind those of `front`, leaves the index of a unit alive. -/
structure Passes (front : List Record) (r : Record) : Prop where
  switch : ∀ d, switches r = some d → ∃ n, d.entitySize = .ok n
  instruction : ∀ i, r = .instruction i → Section.isReadOnly (sectionOf r) = false
  alignment : ∀ d, role r = .directive d → Directive.isAlignmentName d.name = true →
    ∃ n, d.alignment = .ok n
  data : ∀ d, role r = .directive d → Directive.isDataName d.name = true → IsLabelled front →
    ∀ s, d.bytes ≠ .error (.stop s)

section EndsIn

variable {front : List Record} {r : Record} {P Q : List Record → Prop}

lemma EndsIn.imp (h : EndsIn P front) (hPQ : ∀ after, P after → Q after) : EndsIn Q front := by
  obtain ⟨before, l, after, rfl, hl, hafter⟩ := h
  exact ⟨before, l, after, rfl, hl, hPQ after hafter⟩

/-- What ends in a part behind a label goes on with one record more, or that record is the label. -/
lemma endsIn_append_iff :
    EndsIn P (front ++ [r]) ↔
      EndsIn (fun after => P (after ++ [r])) front ∨ (∃ l, role r = .label l) ∧ P [] := by
  constructor
  · rintro ⟨before, l, after, heq, hl, hafter⟩
    rcases List.eq_nil_or_concat' after with rfl | ⟨after, last, rfl⟩
    · obtain ⟨-, hr⟩ := List.append_inj' heq rfl
      obtain rfl := (List.cons.inj hr).1
      exact .inr ⟨⟨l, role_label hl⟩, hafter⟩
    · rw [← List.cons_append, ← List.append_assoc] at heq
      obtain ⟨rfl, hr⟩ := List.append_inj' heq rfl
      obtain rfl := (List.cons.inj hr).1
      exact .inl ⟨before, l, after, rfl, hl, hafter⟩
  · rintro (⟨before, l, after, rfl, hl, hafter⟩ | ⟨⟨l, hrole⟩, hP⟩)
    · exact ⟨before, l, after ++ [r], by rw [List.append_assoc, List.cons_append], hl, hafter⟩
    · obtain ⟨l', rfl, hl, -⟩ := exists_of_name? (r := r) (by rw [name?, hrole])
      exact ⟨front, l', [], rfl, hl, hP⟩

/-- Data behind a record more belong to a label if the record is one of read-only data, or if they
did before and it is no switch. -/
lemma isLabelled_append_iff :
    IsLabelled (front ++ [r]) ↔
      (∃ l, role r = .label l) ∨ IsLabelled front ∧ role r ≠ .switch := by
  rw [IsLabelled, endsIn_append_iff, or_comm]
  refine or_congr (and_iff_left (List.forall_mem_nil _)) ?_
  constructor
  · rintro ⟨before, l, after, rfl, hl, hafter⟩
    obtain ⟨hafter, hr⟩ := List.forall_mem_append.mp hafter
    exact ⟨⟨before, l, after, rfl, hl, hafter⟩, hr r (List.mem_singleton_self r)⟩
  · rintro ⟨h, hr⟩
    exact h.imp fun after hafter => List.forall_mem_append.mpr ⟨hafter, by simpa using hr⟩

end EndsIn

/-! ## What the index keeps of the problems -/

namespace State

/-- A part behind a label that has no data leaves a problem. -/
def LeavesProblem (p : Option String) (after : List Record) : Prop :=
  (∀ r ∈ after, isQuiet r = true) ∧
    p = Directive.lastProblem none (after.filterMap directive?)

/-- The state of an index behind the records: data belong to a blob if they do so behind these, and
as long as the blob has none its problem is that of the directives behind a label. -/
structure Follows (front : List Record) (s : State) : Prop where
  inBlob : s.inBlob = true ↔ IsLabelled front
  last : s.inBlob = true → ∃ last rest, s.index.blobs = last :: rest ∧
    (last.blob.data = [] → EndsIn (LeavesProblem last.blob.problem) front)

variable {front : List Record} {s t : State} {r : Record}

/-- A record of no concern leaves a problem as it is. -/
lemma LeavesProblem.append {p : Option String} {after : List Record} (h : LeavesProblem p after)
    (hr : isQuiet r = true) :
    LeavesProblem ((directive? r).elim p fun d => d.problem?.or p) (after ++ [r]) := by
  obtain ⟨hquiet, rfl⟩ := h
  refine ⟨List.forall_mem_append.mpr ⟨hquiet, by simpa using hr⟩, ?_⟩
  rw [List.filterMap_append]
  cases hd : directive? r with
  | none => simp [hd]
  | some d => simp [hd, Directive.lastProblem]

/-- A directive of read-only data more. -/
lemma Follows.directive (h : s.Follows front) {d : Directive} (hrole : role r = .directive d)
    (hd : s.directive d = .ok t) : t.Follows (front ++ [r]) := by
  have hsome : directive? r = some d := by rw [directive?, hrole]
  have hlabelled : IsLabelled (front ++ [r]) ↔ s.inBlob = true := by
    rw [h.inBlob, isLabelled_append_iff, hrole]
    simp
  -- A directive without bytes leaves its problem behind those of before, if it has one.
  have hnext : ∀ {p : Option String}, d.decoded = [] → EndsIn (LeavesProblem p) front →
      EndsIn (LeavesProblem (d.problem?.or p)) (front ++ [r]) := by
    intro p hdecoded hends
    have hquiet : isQuiet r = true := by
      rw [isQuiet, hrole]
      simp [Directive.fills, hdecoded]
    have hends := endsIn_append_iff.mpr (.inl (hends.imp fun _ h => h.append hquiet))
    rwa [hsome] at hends
  have hsame : ∀ {t : State}, t.inBlob = s.inBlob → t.index.blobs = s.index.blobs →
      (s.inBlob = true → Directive.isDataName d.name = false) → t.Follows (front ++ [r]) := by
    intro t hin hblobs hname
    refine ⟨by rw [hin, hlabelled], fun hopen => ?_⟩
    rw [hin] at hopen
    obtain ⟨last, rest, hlast, hends⟩ := h.last hopen
    refine ⟨last, rest, hblobs.trans hlast, fun hdata => ?_⟩
    have hends := hnext (Directive.decoded_of_isDataName (hname hopen)) (hends hdata)
    rwa [Directive.problem?_of_isDataName (hname hopen), Option.none_or] at hends
  cases directive_eq_ok.mp hd with
  | align halign _ =>
    exact hsame rfl rfl fun _ => Directive.isDataName_of_isAlignmentName halign
  | @data last rest blob hname hopen hblobs hblob =>
    obtain ⟨last', rest', hlast, hends⟩ := h.last hopen
    obtain ⟨rfl, rfl⟩ := List.cons_eq_cons.mp (hblobs.symm.trans hlast)
    obtain ⟨hdata, hproblem⟩ := Blob.extend_data hname hblob
    refine ⟨hlabelled.symm, fun _ => ⟨_, rest, rfl, fun hnil => ?_⟩⟩
    obtain ⟨hbefore, hdecoded⟩ := List.append_eq_nil_iff.mp (hdata.symm.trans hnil)
    have hends := hnext hdecoded (hends hbefore)
    rwa [← hproblem] at hends
  | nothing _ hnone =>
    refine hsame rfl rfl fun hopen => ?_
    obtain ⟨last, rest, hlast, -⟩ := h.last hopen
    exact isDataName_of_nothing hopen hlast hnone

/-- One record more. -/
lemma Follows.record (h : s.Follows front) (hr : s.record r = .ok t) :
    t.Follows (front ++ [r]) := by
  -- What the last blob of the state before leaves behind if the record is quiet.
  have hnext : ∀ {p : Option String}, isQuiet r = true → EndsIn (LeavesProblem p) front →
      EndsIn (LeavesProblem ((directive? r).elim p fun d => d.problem?.or p)) (front ++ [r]) :=
    fun hquiet hends => endsIn_append_iff.mpr (.inl (hends.imp fun _ h => h.append hquiet))
  cases record_eq_ok.mp hr with
  | switch hswitch _ =>
    refine ⟨?_, fun hin => nomatch hin⟩
    rw [isLabelled_append_iff, role_of_switches hswitch]
    simp
  | @label l hrole =>
    have hquiet : isQuiet r = true := by rw [isQuiet, hrole]
    have hnone : directive? r = none := by rw [directive?, hrole]
    obtain ⟨hin, hlabel⟩ := s.label_cases l
    refine ⟨iff_of_true hin (isLabelled_append_iff.mpr (.inl ⟨l, hrole⟩)), fun _ => ?_⟩
    obtain ⟨last, rest, hbefore, hblobs, hdata, hnew⟩ | ⟨-, hnew⟩ := hlabel
    · refine ⟨_, rest, hnew, fun _ => ?_⟩
      obtain ⟨last', rest', hblobs', hends⟩ := h.last hbefore
      obtain ⟨rfl, rfl⟩ := List.cons_eq_cons.mp (hblobs.symm.trans hblobs')
      have hends := hnext hquiet (hends hdata)
      rwa [hnone] at hends
    · refine ⟨_, _, hnew, fun _ => endsIn_append_iff.mpr (.inr ⟨⟨l, hrole⟩, ?_⟩)⟩
      exact ⟨List.forall_mem_nil _, rfl⟩
  | @directive d t hrole hd => exact h.directive hrole hd
  | ignored hrole _ =>
    have hquiet : isQuiet r = true := by rw [isQuiet, hrole]
    have hnone : directive? r = none := by rw [directive?, hrole]
    refine ⟨?_, fun hopen => ?_⟩
    · rw [h.inBlob, isLabelled_append_iff, hrole]
      simp
    obtain ⟨last, rest, hlast, hends⟩ := h.last hopen
    refine ⟨last, rest, hlast, fun hdata => ?_⟩
    have hends := hnext hquiet (hends hdata)
    rwa [hnone] at hends

/-- The state behind any records follows them. -/
lemma follows_of_run {records : List Record} (h : records.foldlM record {} = .ok s) :
    s.Follows records := by
  induction records using List.reverseRecOn generalizing s with
  | nil =>
    obtain rfl := pure_eq_ok.mp h
    refine ⟨⟨fun hin => (nomatch hin), ?_⟩, fun hin => nomatch hin⟩
    rintro ⟨before, l, after, heq, -⟩
    simp at heq
  | append_singleton front r ih =>
    obtain ⟨u, hu, h⟩ := foldlM_append_eq_ok.mp h
    obtain ⟨v, hv, h⟩ := foldlM_cons_eq_ok.mp h
    obtain rfl := pure_eq_ok.mp h
    exact (ih hu).record hv

/-! ## Records that end the index -/

/-- A directive of read-only data ends the index if it asks for no alignment that can be read, or if
its bytes stop and belong to a blob. -/
lemma directive_succeeds_iff (h : s.Follows front) {d : Directive} :
    (∃ t, s.directive d = .ok t) ↔
      (Directive.isAlignmentName d.name = true → ∃ n, d.alignment = .ok n) ∧
      (Directive.isDataName d.name = true → IsLabelled front →
        ∀ e, d.bytes ≠ .error (.stop e)) := by
  rw [directive]
  split_ifs with halign hdata
  · have hname := Directive.isDataName_of_isAlignmentName halign
    cases hn : d.alignment with
    | ok n => simp [hname]
    | error e => simp [halign]
  · obtain ⟨hname, hin⟩ := Bool.and_eq_true_iff.mp hdata
    obtain ⟨last, rest, hblobs, -⟩ := h.last hin
    have hextend : (∃ c, last.blob.extend d = .ok c) ↔ ∀ e, d.bytes ≠ .error (.stop e) := by
      rw [Blob.extend]
      cases hbytes : d.bytes with
      | ok bytes => simp
      | error e => cases e <;> simp
    rw [hblobs]
    simp only [halign, hname, h.inBlob.mp hin, ← hextend, bind_eq_ok, false_implies, true_implies,
      true_and, Bool.false_eq_true]
    constructor
    · rintro ⟨t, c, hc, -⟩
      exact ⟨c, hc⟩
    · rintro ⟨c, hc⟩
      exact ⟨_, c, hc, rfl⟩
  · rw [Bool.and_eq_true, not_and] at hdata
    refine iff_of_true ⟨s, rfl⟩ ⟨fun halign' => absurd halign' halign, fun hname hlabelled => ?_⟩
    exact absurd (h.inBlob.mpr hlabelled) (hdata hname)

/-- A record is indexed exactly if it passes. -/
lemma record_succeeds_iff (h : s.Follows front) : (∃ t, s.record r = .ok t) ↔ Passes front r := by
  have hpasses : Passes front r ↔
      (∀ d, switches r = some d → ∃ n, d.entitySize = .ok n) ∧
      (∀ i, r = .instruction i → Section.isReadOnly (sectionOf r) = false) ∧
      ∀ d, role r = .directive d → ∃ t, s.directive d = .ok t := by
    constructor
    · rintro ⟨hswitch, hinstruction, halign, hdata⟩
      exact ⟨hswitch, hinstruction, fun d hd =>
        (directive_succeeds_iff h).mpr ⟨halign d hd, hdata d hd⟩⟩
    · rintro ⟨hswitch, hinstruction, hdirective⟩
      exact ⟨hswitch, hinstruction, fun d hd => ((directive_succeeds_iff h).mp (hdirective d hd)).1,
        fun d hd => ((directive_succeeds_iff h).mp (hdirective d hd)).2⟩
  rw [hpasses]
  unfold record role
  cases hswitch : switches r with
  | some d =>
    have hother : ∀ i, r ≠ .instruction i := by
      rintro i rfl
      cases hswitch
    constructor
    · rintro ⟨t, ht⟩
      obtain ⟨n, hn, -⟩ := bind_eq_ok.mp ht
      exact ⟨fun e he => ⟨n, Option.some.inj he ▸ mapError_eq_ok.mp hn⟩,
        fun i hi => absurd hi (hother i), fun e he => nomatch he⟩
    · rintro ⟨hentity, -⟩
      obtain ⟨n, hn⟩ := hentity d rfl
      exact ⟨_, bind_eq_ok.mpr ⟨n, mapError_eq_ok.mpr hn, rfl⟩⟩
  | none =>
    cases hsect : Section.isReadOnly (sectionOf r) with
    | true => cases r <;> simp
    | false =>
      cases r with
      | label l =>
        refine iff_of_true ?_ (by simp)
        cases htext : Section.resemblesText (sectionOf (.label l)) <;> simp
      | _ => simp

/-- Records are indexed exactly if each of them passes behind those in front of it. -/
lemma run_succeeds_iff (records : List Record) :
    (∃ s, records.foldlM State.record {} = .ok s) ↔
      ∀ front r back, records = front ++ r :: back → Passes front r := by
  induction records using List.reverseRecOn with
  | nil =>
    refine iff_of_true ⟨_, rfl⟩ fun front r back heq => ?_
    simp at heq
  | append_singleton before last ih =>
    constructor
    · rintro ⟨s, hs⟩ front r back heq
      obtain ⟨u, hu, hs⟩ := foldlM_append_eq_ok.mp hs
      obtain ⟨v, hv, -⟩ := foldlM_cons_eq_ok.mp hs
      rcases List.eq_nil_or_concat' back with rfl | ⟨back, last', rfl⟩
      · obtain ⟨rfl, hr⟩ := List.append_inj' heq rfl
        obtain rfl := (List.cons.inj hr).1
        exact (record_succeeds_iff (follows_of_run hu)).mp ⟨v, hv⟩
      · rw [← List.cons_append, ← List.append_assoc] at heq
        obtain ⟨rfl, -⟩ := List.append_inj' heq rfl
        exact ih.mp ⟨u, hu⟩ front r back rfl
    · intro hpasses
      obtain ⟨u, hu⟩ := ih.mpr fun front r back heq =>
        hpasses front r (back ++ [last]) (by rw [heq, List.append_assoc, List.cons_append])
      obtain ⟨v, hv⟩ := (record_succeeds_iff (follows_of_run hu)).mpr (hpasses before last [] rfl)
      exact ⟨v, foldlM_append_eq_ok.mpr ⟨u, hu, foldlM_cons_eq_ok.mpr ⟨v, hv, rfl⟩⟩⟩

end State

/-! ## The index of a unit -/

variable {records front back : List Record} {x : DataIndex} {l : Label}

/-- The directive stands in the blob of a label of read-only data between the records: in its
extent, or in front of it where the blob has no data yet. -/
def IsAround (front back : List Record) (d : Directive) : Prop :=
  d ∈ extent Directive.fills false back ∨ IsAhead front d

/-- Which records end the index of a unit, and which directives make a label undecodable. -/
structure Confines (records : List Record) : Prop where
  indexed : (∃ x, ofRecords records = .ok x) ↔
    ∀ front r back, records = front ++ r :: back → Passes front r
  /-- A label is undecodable exactly if a directive of its blob cannot be read. -/
  undecodable : ∀ x front l back, ofRecords records = .ok x → records = front ++ .label l :: back →
    Section.isReadOnly (l.sect.getD "") = true → (∀ r ∈ back, name? r ≠ some l.name) →
      ((∃ reason, x.lookup (some l.name) = .error (.dataUndecodable l.name reason)) ↔
        ∃ d, IsAround front back d ∧ ¬ d.IsReadable)
  /-- The reason is that of such a directive, with its line. -/
  reason : ∀ x front l back, ofRecords records = .ok x → records = front ++ .label l :: back →
    Section.isReadOnly (l.sect.getD "") = true → (∀ r ∈ back, name? r ≠ some l.name) →
      ∀ reason, x.lookup (some l.name) = .error (.dataUndecodable l.name reason) →
        ∃ d, IsAround front back d ∧ d.problem? = some reason

/-- A unit is indexed exactly if its records are. -/
lemma ofRecords_succeeds_iff (records : List Record) : (∃ x, ofRecords records = .ok x) ↔
    ∀ front r back, records = front ++ r :: back → Passes front r := by
  rw [← State.run_succeeds_iff]
  constructor
  · rintro ⟨x, hx⟩
    obtain ⟨s, hs, -⟩ := map_eq_ok.mp hx
    exact ⟨s, hs⟩
  · rintro ⟨s, hs⟩
    exact ⟨s.index, map_eq_ok.mpr ⟨s, hs, rfl⟩⟩

/-- A label of read-only data stands behind the same directives as the records in front of it. -/
lemma isAhead_append_label (hl : Section.isReadOnly (l.sect.getD "") = true) {d : Directive} :
    IsAhead (front ++ [.label l]) d ↔ IsAhead front d := by
  have hquiet : isQuiet (.label l) = true := by rw [isQuiet, role_label hl]
  have hnone : directive? (.label l) = none := by rw [directive?, role_label hl]
  rw [IsAhead, endsIn_append_iff]
  simp only [List.filterMap_nil, List.not_mem_nil, and_false, or_false, List.forall_mem_append,
    List.forall_mem_singleton, hquiet, and_true, List.filterMap_append,
    List.filterMap_cons_none hnone, List.append_nil]
  rfl

/-- What a label finds has the problem of the directives in its extent, or else one that was there
before them: that of a directive ahead of the label, and none only if all these are readable. -/
lemma find?_problem (h : ofRecords (front ++ .label l :: back) = .ok x)
    (hl : Section.isReadOnly (l.sect.getD "") = true)
    (hother : ∀ r ∈ back, name? r ≠ some l.name) :
    ∃ b before, x.find? l.name = some b ∧
      b.problem = Directive.lastProblem before (extent Directive.fills false back) ∧
      (∀ reason, before = some reason → ∃ d, IsAhead front d ∧ d.problem? = some reason) ∧
      (before = none → ∀ d, IsAhead front d → d.IsReadable) := by
  obtain ⟨s, t, hs, hrun, rfl⟩ := exists_states h hl
  obtain ⟨b, hopen, hdata⟩ := s.exists_open_label l
  obtain ⟨c, hfind, -, -, hproblem⟩ := hopen.run hrun fun r hr n hn => by
    rw [List.mem_singleton.mp hn]
    exact hother r hr
  rw [hdata] at hproblem
  refine ⟨c, b.problem, hfind _ List.mem_cons_self, hproblem, fun reason hreason => ?_,
    fun hnone d hd => ?_⟩
  · obtain ⟨all, rest, hblobs, -⟩ := hopen.last
    obtain ⟨last, rest', hblobs', hends⟩ := (State.follows_of_run hs).last hopen.inBlob
    obtain ⟨rfl, rfl⟩ := List.cons_eq_cons.mp (hblobs.symm.trans hblobs')
    obtain ⟨before, l', after, heq, hl', hquiet, hlast⟩ := hends hdata
    rw [hreason] at hlast
    obtain ⟨d, hd, hproblem⟩ :=
      (Directive.exists_of_lastProblem hlast.symm).resolve_left (Option.some_ne_none _).symm
    exact ⟨d, (isAhead_append_label hl).mp ⟨before, l', after, heq, hl', hquiet, hd⟩, hproblem⟩
  · obtain ⟨before, l', after, heq, hl', hquiet, hd⟩ := (isAhead_append_label hl).mpr hd
    rw [heq] at hs
    obtain ⟨u, hu, hs⟩ := foldlM_append_eq_ok.mp hs
    obtain ⟨v, hv, hs⟩ := foldlM_cons_eq_ok.mp hs
    obtain rfl := Except.ok.inj ((State.record_of_label (role_label hl')).symm.trans hv)
    obtain ⟨e, he, hedata⟩ := u.exists_open_label l'
    obtain ⟨f, hf, -, -, hfproblem⟩ := he.weaken.quiet hedata hs hquiet
    obtain ⟨all, rest, hblobs, -⟩ := hopen.last
    obtain ⟨all', rest', hblobs', -⟩ := hf.last
    obtain ⟨heq, -⟩ := List.cons_eq_cons.mp (hblobs.symm.trans hblobs')
    obtain ⟨-, rfl⟩ := LabelledBlob.mk.inj heq
    exact (Directive.lastProblem_eq_none.mp (hfproblem.symm.trans hnone)).2 d hd

/-- A blob with a problem is undecodable, whichever of its labels it is looked up by. -/
lemma lookup_eq_undecodable_iff {name reason : String} {b : Blob} (h : x.find? name = some b) :
    x.lookup (some name) = .error (.dataUndecodable name reason) ↔ b.problem = some reason := by
  simp only [lookup, Option.bind_some, h, symbolText, Option.getD_some]
  cases b.problem with
  | some p => simp
  | none => split_ifs <;> simp

/-- The index of a unit is given up exactly if one of its records does not pass: an instruction in
read-only data, an entity size or an alignment that cannot be read, or a directive behind a label
whose bytes stop. Otherwise every label of read-only data is undecodable exactly if a directive
cannot be read that stands in its extent, or behind an earlier label without any data up to this
one. -/
theorem ofRecords_confines (records : List Record) : Confines records := by
  refine ⟨ofRecords_succeeds_iff records, ?_, ?_⟩
  · rintro x front l back hx rfl hl hother
    obtain ⟨b, before, hfind, hproblem, hbefore, hnone⟩ := find?_problem hx hl hother
    simp only [lookup_eq_undecodable_iff hfind]
    constructor
    · rintro ⟨reason, hreason⟩
      by_contra hreadable
      push Not at hreadable
      have hahead : before = none := by
        rw [Option.eq_none_iff_forall_ne_some]
        intro p hp
        obtain ⟨d, hd, hdp⟩ := hbefore p hp
        exact nomatch (Directive.problem?_eq_none.mpr (hreadable d (.inr hd))).symm.trans hdp
      have hlast := Directive.lastProblem_eq_none.mpr
        ⟨hahead, fun d hd => hreadable d (.inl hd)⟩
      exact nomatch (hproblem.trans hlast).symm.trans hreason
    · rintro ⟨d, hd, hreadable⟩
      rw [← Option.isSome_iff_exists, Option.isSome_iff_ne_none]
      intro hnil
      obtain ⟨hahead, hextent⟩ := Directive.lastProblem_eq_none.mp (hproblem.symm.trans hnil)
      exact hreadable (hd.elim (hextent d) (hnone hahead d))
  · rintro x front l back hx rfl hl hother reason hlookup
    obtain ⟨b, before, hfind, hproblem, hbefore, -⟩ := find?_problem hx hl hother
    rw [lookup_eq_undecodable_iff hfind, hproblem] at hlookup
    rcases Directive.exists_of_lastProblem hlookup with hreason | ⟨d, hd, hreason⟩
    · obtain ⟨d, hd, hreason⟩ := hbefore reason hreason
      exact ⟨d, .inr hd, hreason⟩
    · exact ⟨d, .inl hd, hreason⟩

/-- Two units without instructions. In the first one a label behind a label difference is
undecodable, though the only directive behind it can be read; the second one is given up for an
alignment that is none. -/
theorem not_confined :
    (∃ records x, Source.readUnit ".section .rodata\nA: .long x-y\nB: .long 1\n" = .ok records ∧
      ofRecords records = .ok x ∧
      ∃ front l d, records = front ++ [.label l, .directive d] ∧ l.name = "B" ∧
        Section.isReadOnly (l.sect.getD "") = true ∧ d.bytes = .ok [1, 0, 0, 0] ∧
        x.lookup (some "B") = .error (.dataUndecodable "B"
          "invalid literal for int() with base 0: 'x-y' (line 2)")) ∧
    ∃ records, Source.readUnit ".section .rodata\n.p2align x\nA: .long 1\n" = .ok records ∧
      (∀ i, .instruction i ∉ records) ∧
      ofRecords records = .error (.stop .numberUnreadable) := by
  let long (args : String) (line : ℕ) : Directive := ⟨".long", args, some line, some ".rodata"⟩
  constructor
  · let front : List Record := [.directive ⟨".section", ".rodata", some 1, some ".rodata"⟩,
      .label ⟨"A", some 2, some ".rodata"⟩, .directive (long "x-y" 2)]
    let l : Label := ⟨"B", some 3, some ".rodata"⟩
    obtain ⟨records, hread, hrecords, hx⟩ : ∃ records,
        Source.readUnit ".section .rodata\nA: .long x-y\nB: .long 1\n" = .ok records ∧
          records = front ++ [.label l, .directive (long "1" 3)] ∧
          (ofRecords records).toOption.any (fun x => decide
            (x.lookup (some "B") = .error (.dataUndecodable "B"
              "invalid literal for int() with base 0: 'x-y' (line 2)"))) = true :=
      exists_ok_of_any (by decide +kernel)
    obtain ⟨x, hx, hlookup⟩ := exists_ok_of_any hx
    exact ⟨records, x, hread, hx, front, l, long "1" 3, hrecords, rfl, by decide +kernel,
      by decide +kernel, hlookup⟩
  · obtain ⟨records, hread, hrecords, hstop⟩ : ∃ records,
        Source.readUnit ".section .rodata\n.p2align x\nA: .long 1\n" = .ok records ∧
          records = [.directive ⟨".section", ".rodata", some 1, some ".rodata"⟩,
            .directive ⟨".p2align", "x", some 2, some ".rodata"⟩,
            .label ⟨"A", some 3, some ".rodata"⟩, .directive (long "1" 3)] ∧
          ofRecords records = .error (.stop .numberUnreadable) :=
      exists_ok_of_any (by decide +kernel)
    exact ⟨records, hread, fun i hi => by simp [hrecords] at hi, hstop⟩

end AsmBridge.DataIndex
