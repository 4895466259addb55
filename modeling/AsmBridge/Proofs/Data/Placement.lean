import AsmBridge.Proofs.Data.Labels
import AsmBridge.Proofs.Function.Placement

/-!
# Data elsewhere in a unit

Whether the data of a unit can be indexed does not depend on where its records stand, nor on the
data before them, if the unit begins with a switch of sections (`exists_ofRecords_append`).
-/

namespace AsmBridge

namespace Directive

variable {d d' : Directive}

lemma unplaced_alignment (d : Directive) : d.unplaced.alignment = d.alignment := by
  have hargv : d.unplaced.argv = d.argv := rfl
  unfold alignment
  rw [hargv]
  cases d.argv with
  | nil => rfl
  | cons arg rest => dsimp only [unplaced]

lemma alignment_of_unplaced (h : d'.unplaced = d.unplaced) : d'.alignment = d.alignment := by
  rw [← unplaced_alignment, h, unplaced_alignment]

end Directive

/-- A directive extends a blob alike wherever it stands, but for the line that a problem names. -/
lemma Blob.exists_extend {b c : Blob} {d d' : Directive} (h : b.extend d = .ok c)
    (hd : d'.unplaced = d.unplaced) (b' : Blob) :
    ∃ c', b'.extend d' = .ok c' ∧
      ((∃ bytes, c = { b with data := b.data ++ bytes } ∧
          c' = { b' with data := b'.data ++ bytes }) ∨
        ∃ reason reason', c = { b with problem := some reason } ∧
          c' = { b' with problem := some reason' }) := by
  have hbytes : d'.bytes = d.bytes := (congrArg Directive.bytes hd :)
  unfold extend at h ⊢
  rw [hbytes]
  split at h
  · exact ⟨_, rfl, .inl ⟨_, (Except.ok.inj h).symm, rfl⟩⟩
  · cases h
  · exact ⟨_, rfl, .inr ⟨_, _, (Except.ok.inj h).symm, rfl⟩⟩

namespace DataIndex

variable {s s' t : State}

/-! ## Records elsewhere -/

def Role.unplaced : Role → Role
  | .switch => .switch
  | .label l => .label l.unplaced
  | .directive d => .directive d.unplaced
  | .ignored => .ignored

/-- A role that is another one elsewhere. -/
lemma Role.of_unplaced {x y : Role} : x.unplaced = y.unplaced →
    match y with
    | .label l => ∃ l', x = .label l' ∧ l'.unplaced = l.unplaced
    | .directive d => ∃ d', x = .directive d' ∧ d'.unplaced = d.unplaced
    | y => x = y := by
  intro h
  cases x <;> cases y <;> simp [unplaced] at h <;> simp [h]

lemma switches_unplaced (r : Record) : switches r.unplaced = (switches r).map (·.unplaced) := by
  cases r with
  | directive d =>
    have hif : switches (.directive d.unplaced) =
        if sectionSwitches.contains d.name then some d.unplaced else none := rfl
    rw [Record.unplaced, hif, switches]
    split <;> rfl
  | _ => rfl

lemma sectionOf_unplaced (r : Record) : sectionOf r.unplaced = sectionOf r := by
  cases r <;> rfl

lemma role_unplaced (r : Record) : role r.unplaced = (role r).unplaced := by
  unfold role
  rw [switches_unplaced, sectionOf_unplaced, Option.isSome_map]
  split
  · rfl
  · split
    · cases r <;> rfl
    · rfl

lemma writableName?_unplaced (r : Record) : writableName? r.unplaced = writableName? r := by
  cases r <;> rfl

section Unplaced

variable {r r' : Record} (h : r'.unplaced = r.unplaced)
include h

lemma exists_switches_of_unplaced {d : Directive} (hd : switches r = some d) :
    ∃ d', switches r' = some d' ∧ d'.entitySize = d.entitySize := by
  have hswitches : (switches r').map (·.unplaced) = some d.unplaced := by
    rw [← switches_unplaced, h, switches_unplaced, hd]
    rfl
  obtain ⟨d', hd', heq⟩ := Option.map_eq_some_iff.mp hswitches
  exact ⟨d', hd', (congrArg Directive.entitySize heq :)⟩

lemma role_of_unplaced : (role r').unplaced = (role r).unplaced := by
  rw [← role_unplaced, h, role_unplaced]

end Unplaced

namespace State

/-- The relation between states is kept by all that records do, wherever they stand. -/
structure IsKept (R : State → State → Prop) : Prop where
  label : ∀ {s t : State} {l l' : Label}, R s t → l'.unplaced = l.unplaced →
    R (s.label l) (t.label l')
  directive : ∀ {s s' t : State} {d d' : Directive}, R s t → d'.unplaced = d.unplaced →
    s.directive d = .ok s' → ∃ t', t.directive d' = .ok t' ∧ R s' t'
  switch : ∀ {s t : State} (n : ℤ), R s t →
    R { s with inBlob := false, align := 1, entity := n }
      { t with inBlob := false, align := 1, entity := n }
  writable : ∀ {s t : State} (names : List String), R s t →
    R { s with index := { s.index with writable := names ++ s.index.writable } }
      { t with index := { t.index with writable := names ++ t.index.writable } }

variable {R : State → State → Prop}

/-- A switch of sections is read alike in all states. -/
lemma exists_record_of_switches {r r' : Record} (hr : r'.unplaced = r.unplaced) {d : Directive}
    (hd : switches r = some d) (hs : s.record r = .ok s') (t : State) :
    ∃ n, s' = { s with inBlob := false, align := 1, entity := n } ∧
      t.record r' = .ok { t with inBlob := false, align := 1, entity := n } := by
  have hrole := role_of_switches hd
  cases record_eq_ok.mp hs with
  | @switch d n hswitch hn =>
    obtain ⟨d', hswitch', hsize⟩ := exists_switches_of_unplaced hr hswitch
    exact ⟨n, rfl, record_eq_ok.mpr (.switch hswitch' (hsize.trans hn))⟩
  | label hlabel => cases hrole.symm.trans hlabel
  | directive hdirective _ => cases hrole.symm.trans hdirective
  | ignored hignored _ => cases hrole.symm.trans hignored

/-- A record more, elsewhere. -/
lemma IsKept.exists_record (hR : IsKept R) (h : R s t) {r r' : Record}
    (hr : r'.unplaced = r.unplaced) (hs : s.record r = .ok s') :
    ∃ t', t.record r' = .ok t' ∧ R s' t' := by
  have hroles := Role.of_unplaced (role_of_unplaced hr)
  cases record_eq_ok.mp hs with
  | switch hswitch _ =>
    obtain ⟨n, heq, ht⟩ := exists_record_of_switches hr hswitch hs t
    rw [heq]
    exact ⟨_, ht, hR.switch n h⟩
  | label hrole =>
    rw [hrole] at hroles
    obtain ⟨l', hrole', hl⟩ := hroles
    exact ⟨_, record_eq_ok.mpr (.label hrole'), hR.label h hl⟩
  | directive hrole hd =>
    rw [hrole] at hroles
    obtain ⟨d', hrole', hd'⟩ := hroles
    obtain ⟨t', ht', h'⟩ := hR.directive h hd' hd
    exact ⟨t', record_eq_ok.mpr (.directive hrole' ht'), h'⟩
  | ignored hrole hsect =>
    rw [hrole] at hroles
    have hsect' : Section.isReadOnly (sectionOf r') = false := by
      rw [← sectionOf_unplaced, hr, sectionOf_unplaced]
      exact hsect
    have hname : writableName? r' = writableName? r := by
      rw [← writableName?_unplaced, hr, writableName?_unplaced]
    refine ⟨_, record_eq_ok.mpr (.ignored hroles hsect'), ?_⟩
    rw [hname]
    exact hR.writable _ h

/-- A row of records, elsewhere. -/
lemma IsKept.exists_run (hR : IsKept R) (h : R s t) {rs rs' : List Record}
    (heq : List.Forall₂ (fun r' r => r'.unplaced = r.unplaced) rs' rs)
    (hs : rs.foldlM State.record s = .ok s') :
    ∃ t', rs'.foldlM State.record t = .ok t' ∧ R s' t' := by
  induction heq generalizing s t with
  | nil =>
    obtain rfl := pure_eq_ok.mp hs
    exact ⟨t, rfl, h⟩
  | cons hr _ ih =>
    obtain ⟨s₁, hs₁, hs⟩ := foldlM_cons_eq_ok.mp hs
    obtain ⟨t₁, ht₁, h₁⟩ := hR.exists_record h hr hs₁
    obtain ⟨t', ht', h'⟩ := ih h₁ hs
    exact ⟨t', foldlM_cons_eq_ok.mpr ⟨t₁, ht₁, ht'⟩, h'⟩

end State

/-! ## States that expect data alike -/

/-- The two states expect data alike: if the first one does, it has a blob for them. -/
structure State.GoesAlong (s t : State) : Prop where
  inBlob : t.inBlob = s.inBlob
  blobs : s.inBlob = true → s.index.blobs ≠ []

/-- What goes along goes on so. -/
lemma State.goesAlong_isKept : State.IsKept State.GoesAlong where
  label := by
    intro s t l l' _ _
    refine ⟨rfl, fun _ => ?_⟩
    obtain ⟨-, ⟨last, rest, -, -, -, hnew⟩ | ⟨-, hnew⟩⟩ := s.label_cases l
    · rw [hnew]
      exact List.cons_ne_nil _ _
    · rw [hnew]
      exact List.cons_ne_nil _ _
  directive := by
    intro s s' t d d' h hd hs
    have hname : d'.name = d.name := (congrArg Directive.name hd :)
    cases directive_eq_ok.mp hs with
    | @align n halign hn =>
      have ht : t.Directs d' { t with align := max t.align n } :=
        .align (hname ▸ halign) ((Directive.alignment_of_unplaced hd).trans hn)
      exact ⟨_, directive_eq_ok.mpr ht, h.inBlob, h.blobs⟩
    | data hdata hin hblobs hblob =>
      have hother : Directive.isAlignmentName d'.name = false := by
        rw [hname, Bool.eq_false_iff]
        intro halign
        rw [Directive.isDataName_of_isAlignmentName halign] at hdata
        cases hdata
      cases hblobs' : t.index.blobs with
      | nil =>
        exact ⟨t, directive_eq_ok.mpr (.nothing hother fun _ _ => hblobs'), h.inBlob,
          fun _ => List.cons_ne_nil _ _⟩
      | cons last' rest' =>
        obtain ⟨b', hb', -⟩ := Blob.exists_extend hblob hd last'.blob
        exact ⟨_, directive_eq_ok.mpr (.data (by rwa [hname]) (h.inBlob.trans hin) hblobs' hb'),
          h.inBlob, fun _ => List.cons_ne_nil _ _⟩
    | nothing halign hnone =>
      refine ⟨t, directive_eq_ok.mpr (.nothing (by rwa [hname]) fun hdata hin => ?_), h⟩
      rw [hname] at hdata
      rw [h.inBlob] at hin
      exact absurd (hnone hdata hin) (h.blobs hin)
  switch := fun _ _ => ⟨rfl, fun h => nomatch h⟩
  writable := fun _ h => ⟨h.inBlob, h.blobs⟩

/-- The data of a unit behind which another one stands can be indexed if those of both can, provided
that the other one begins with a switch of sections. -/
lemma exists_ofRecords_append {records records' rest : List Record} {d : Directive}
    {x y : DataIndex} (hx : ofRecords records = .ok x)
    (hy : ofRecords (.directive d :: rest) = .ok y) (hd : sectionSwitches.contains d.name = true)
    (heq : records'.map (·.unplaced) = (Record.directive d :: rest).map (·.unplaced)) :
    ∃ z, ofRecords (records ++ records') = .ok z := by
  obtain ⟨s, hs, -⟩ := map_eq_ok.mp hx
  obtain ⟨t, ht, -⟩ := map_eq_ok.mp hy
  obtain ⟨t₁, ht₁, ht⟩ := foldlM_cons_eq_ok.mp ht
  obtain ⟨r', rest', rfl, hr', hrest⟩ := List.map_eq_cons_iff.mp heq
  obtain ⟨n, heq, hs₁⟩ := State.exists_record_of_switches hr' (if_pos hd) ht₁ s
  have halong : t₁.GoesAlong { s with inBlob := false, align := 1, entity := n } := by
    rw [heq]
    exact ⟨rfl, fun h => nomatch h⟩
  obtain ⟨s', hs', -⟩ :=
    State.goesAlong_isKept.exists_run halong (map_eq_map_iff_forall₂.mp hrest) ht
  exact ⟨_, map_eq_ok.mpr ⟨s', foldlM_append_eq_ok.mpr
    ⟨s, hs, foldlM_cons_eq_ok.mpr ⟨_, hs₁, hs'⟩⟩, rfl⟩⟩

end DataIndex

end AsmBridge
