import AsmBridge.Data.Index
import AsmBridge.Proofs.Outcome
import Mathlib.Data.Int.Notation

/-!
# What a record does to the index of data

To the index a record is a switch of sections, a label or a directive of read-only data, or nothing
(`DataIndex.role`). `State.Indexes` has one case for each of these, and `State.Directs` one for each
thing that a directive of read-only data can do. `State.record_eq_ok` and `State.directive_eq_ok`
say that this is all that happens, and what the index keeps is shown by these cases.
-/

namespace AsmBridge

/-- An alignment directive is no data directive. -/
lemma Directive.isDataName_of_isAlignmentName {name : String} (h : isAlignmentName name = true) :
    isDataName name = false := by
  have hall : ∀ n ∈ [".p2align", ".align", ".balign", ".p2alignw", ".p2alignl"],
      isDataName n = false := by decide
  exact hall name (by simpa [isAlignmentName] using h)

/-- A directive adds its bytes to a blob, or the reason why they cannot be read. -/
lemma Blob.extend_eq_ok {b c : Blob} {d : Directive} (h : b.extend d = .ok c) :
    (∃ bytes, d.bytes = .ok bytes ∧ c = { b with data := b.data ++ bytes }) ∨
      ∃ e, d.bytes = .error e ∧ c = { b with
        problem := some (e.reason ++ " (line " ++ toString (d.line.getD 0) ++ ")") } := by
  rw [Blob.extend] at h
  split at h
  · rename_i bytes hbytes
    exact .inl ⟨bytes, hbytes, (Except.ok.inj h).symm⟩
  · cases h
  · rename_i e _ hbytes
    exact .inr ⟨e, hbytes, (Except.ok.inj h).symm⟩

namespace DataIndex

/-- What a record is to the index. -/
inductive Role
  | switch
  | label (l : Label)
  | directive (d : Directive)
  | ignored
deriving DecidableEq

/-- The role of a record: directives that select a section, and the labels and the other directives
of read-only sections. -/
def role (r : Record) : Role :=
  if (switches r).isSome then .switch
  else if Section.isReadOnly (sectionOf r) then
    match r with
    | .label l => .label l
    | .directive d => .directive d
    | .instruction _ => .ignored
  else .ignored

section Role

variable {r : Record}

/-- What selects a section is a switch. -/
lemma role_of_switches {d : Directive} (h : switches r = some d) : role r = .switch := by
  unfold role
  rw [h]
  rfl

lemma of_role_switch (h : role r = .switch) : ∃ d, switches r = some d := by
  unfold role at h
  split_ifs at h with hswitch hreadOnly
  · exact Option.isSome_iff_exists.mp hswitch
  · cases r <;> cases h

/-- What is no switch selects no section. -/
lemma switches_eq_none (h : role r ≠ .switch) : switches r = none := by
  rw [Option.eq_none_iff_forall_ne_some]
  exact fun d hd => h (role_of_switches hd)

/-- A label of read-only data. -/
lemma of_role_label {l : Label} (h : role r = .label l) :
    r = .label l ∧ Section.isReadOnly (l.sect.getD "") = true := by
  unfold role at h
  split_ifs at h with _ hreadOnly
  cases r with
  | label l' =>
    obtain rfl := Role.label.inj h
    exact ⟨rfl, hreadOnly⟩
  | directive d => cases h
  | instruction i => cases h

/-- A directive of read-only data. -/
lemma of_role_directive {d : Directive} (h : role r = .directive d) :
    r = .directive d ∧ switches r = none ∧ Section.isReadOnly (sectionOf r) = true := by
  unfold role at h
  split_ifs at h with hswitch hreadOnly
  cases r with
  | label l => cases h
  | directive d' =>
    obtain rfl := Role.directive.inj h
    exact ⟨rfl, by simpa using hswitch, hreadOnly⟩
  | instruction i => cases h

/-- What is ignored selects no section, and in a read-only section it is an instruction. -/
lemma of_role_ignored (h : role r = .ignored) :
    switches r = none ∧ (Section.isReadOnly (sectionOf r) = true → ∃ i, r = .instruction i) := by
  unfold role at h
  split_ifs at h with hswitch hreadOnly
  · refine ⟨by simpa using hswitch, fun _ => ?_⟩
    cases r with
    | label l => cases h
    | directive d => cases h
    | instruction i => exact ⟨i, rfl⟩
  · exact ⟨by simpa using hswitch, fun hsect => absurd hsect hreadOnly⟩

end Role

/-- The name that a record gives to writable data. -/
def writableName? : Record → Option String
  | .label l =>
    if Section.isReadOnly (l.sect.getD "") || Section.resemblesText (l.sect.getD "") then none
    else some l.name
  | _ => none

namespace State

variable {s t : State} {d : Directive} {r : Record}

/-- What a directive of read-only data does: it asks for an alignment, or it extends the last blob,
or it does nothing, being no data directive where there is a blob for it. -/
inductive Directs (s : State) (d : Directive) : State → Prop
  | align {n : ℤ} (halign : Directive.isAlignmentName d.name = true) (hn : d.alignment = .ok n) :
      Directs s d { s with align := max s.align n }
  | data {last : LabelledBlob} {rest : List LabelledBlob} {blob : Blob}
      (hname : Directive.isDataName d.name = true) (hin : s.inBlob = true)
      (hblobs : s.index.blobs = last :: rest) (hblob : last.blob.extend d = .ok blob) :
      Directs s d
        { s with index := { s.index with blobs := { last with blob := blob } :: rest } }
  | nothing (halign : Directive.isAlignmentName d.name = false)
      (hnone : Directive.isDataName d.name = true → s.inBlob = true → s.index.blobs = []) :
      Directs s d s

lemma directive_eq_ok : s.directive d = .ok t ↔ s.Directs d t := by
  unfold State.directive
  by_cases halign : Directive.isAlignmentName d.name = true
  · rw [if_pos halign]
    constructor
    · intro h
      split at h
      · rename_i n hn
        rw [← Except.ok.inj h]
        exact .align halign hn
      · cases h
    · rintro (⟨-, hn⟩ | ⟨hname, -⟩ | ⟨hother, -⟩)
      · rw [hn]
      · rw [Directive.isDataName_of_isAlignmentName halign] at hname
        cases hname
      · rw [hother] at halign
        cases halign
  · rw [if_neg halign]
    have hother := Bool.eq_false_iff.mpr halign
    by_cases hdata : (Directive.isDataName d.name && s.inBlob) = true
    · rw [if_pos hdata]
      obtain ⟨hname, hin⟩ := Bool.and_eq_true_iff.mp hdata
      cases hblobs : s.index.blobs with
      | nil =>
        constructor
        · intro h
          rw [← Except.ok.inj h]
          exact .nothing hother fun _ _ => hblobs
        · rintro (⟨halign', -⟩ | ⟨-, -, hcons, -⟩ | _)
          · exact absurd halign' halign
          · cases hblobs.symm.trans hcons
          · rfl
      | cons last rest =>
        constructor
        · intro h
          obtain ⟨blob, hblob, h⟩ := bind_eq_ok.mp h
          rw [← pure_eq_ok.mp h]
          exact .data hname hin hblobs hblob
        · rintro (⟨halign', -⟩ | ⟨-, -, hcons, hblob⟩ | ⟨-, hnone⟩)
          · exact absurd halign' halign
          · obtain ⟨rfl, rfl⟩ := List.cons_eq_cons.mp (hblobs.symm.trans hcons)
            exact bind_eq_ok.mpr ⟨_, hblob, rfl⟩
          · cases hblobs.symm.trans (hnone hname hin)
    · rw [if_neg hdata]
      have hnot : Directive.isDataName d.name = true → ¬ s.inBlob = true := fun hname hin =>
        hdata (Bool.and_eq_true_iff.mpr ⟨hname, hin⟩)
      constructor
      · intro h
        rw [← Except.ok.inj h]
        exact .nothing hother fun hname hin => absurd hin (hnot hname)
      · rintro (⟨halign', -⟩ | ⟨hname, hin, -, -⟩ | _)
        · exact absurd halign' halign
        · exact absurd hin (hnot hname)
        · rfl

lemma record_of_label {l : Label} (h : role r = .label l) : s.record r = .ok (s.label l) := by
  obtain ⟨rfl, hsect⟩ := of_role_label h
  exact if_pos hsect

lemma record_of_directive (h : role r = .directive d) : s.record r = s.directive d := by
  obtain ⟨rfl, hnone, hsect⟩ := of_role_directive h
  unfold State.record
  rw [hnone]
  exact if_pos hsect

/-- A record that is ignored leaves the blobs alone; a label of writable data is noted. -/
lemma record_of_ignored (h : role r = .ignored)
    (hsect : Section.isReadOnly (sectionOf r) = false) :
    s.record r = .ok { s with
      index := { s.index with writable := (writableName? r).toList ++ s.index.writable } } := by
  unfold State.record
  rw [(of_role_ignored h).1]
  dsimp only
  rw [if_neg (Bool.eq_false_iff.mp hsect)]
  cases r with
  | label l =>
    have hl : Section.isReadOnly (l.sect.getD "") = false := hsect
    cases htext : Section.resemblesText (l.sect.getD "") <;>
      simp [writableName?, sectionOf, hl, htext]
  | _ => rfl

/-- What a record does to the index, by its role. -/
inductive Indexes (s : State) (r : Record) : State → Prop
  | switch {d : Directive} {n : ℤ} (hswitch : switches r = some d) (hn : d.entitySize = .ok n) :
      Indexes s r { s with inBlob := false, align := 1, entity := n }
  | label {l : Label} (hrole : role r = .label l) : Indexes s r (s.label l)
  | directive {d : Directive} {t : State} (hrole : role r = .directive d)
      (h : s.directive d = .ok t) : Indexes s r t
  | ignored (hrole : role r = .ignored) (hsect : Section.isReadOnly (sectionOf r) = false) :
      Indexes s r { s with
        index := { s.index with writable := (writableName? r).toList ++ s.index.writable } }

lemma record_eq_ok : s.record r = .ok t ↔ s.Indexes r t := by
  constructor
  · intro h
    cases hrole : role r with
    | switch =>
      obtain ⟨d, hswitch⟩ := of_role_switch hrole
      unfold State.record at h
      rw [hswitch] at h
      obtain ⟨n, hn, h⟩ := bind_eq_ok.mp h
      rw [← pure_eq_ok.mp h]
      exact .switch hswitch (mapError_eq_ok.mp hn)
    | label l =>
      rw [record_of_label hrole] at h
      rw [← Except.ok.inj h]
      exact .label hrole
    | directive d =>
      rw [record_of_directive hrole] at h
      exact .directive hrole h
    | ignored =>
      cases hsect : Section.isReadOnly (sectionOf r) with
      | true =>
        obtain ⟨i, rfl⟩ := (of_role_ignored hrole).2 hsect
        cases (if_pos hsect).symm.trans h
      | false =>
        rw [record_of_ignored hrole hsect] at h
        rw [← Except.ok.inj h]
        exact .ignored hrole hsect
  · rintro (⟨hswitch, hn⟩ | hrole | ⟨hrole, h⟩ | ⟨hrole, hsect⟩)
    · unfold State.record
      rw [hswitch]
      exact bind_eq_ok.mpr ⟨_, mapError_eq_ok.mpr hn, rfl⟩
    · exact record_of_label hrole
    · exact (record_of_directive hrole).trans h
    · exact record_of_ignored hrole hsect

end State

end DataIndex

end AsmBridge
