import AsmBridge.Proofs.Data.Labels
import Mathlib.Algebra.Order.Group.Int
import Mathlib.Order.Bounds.Defs

/-!
# The alignment of a blob

A blob is aligned for the label that begins it: to the greatest of the alignments that directives
ask for between this label and the label or switch of sections before it, and of the entity size of
its section (`DataIndex.exists_beginsAt`). The labels that name the blob later add nothing to it,
and a directive that stands between two of them counts for none.
-/

namespace AsmBridge

/-- More data leave a blob its alignment. -/
lemma Blob.extend_align {b c : Blob} {d : Directive} (h : b.extend d = .ok c) :
    c.align = b.align := by
  rcases Blob.extend_eq_ok h with ⟨bytes, -, rfl⟩ | ⟨e, -, rfl⟩
  · rfl
  · rfl

namespace DataIndex

/-! ## What directives declare -/

/-- What a record asks for as an alignment directive of read-only data. -/
def alignment? (r : Record) : Option ℤ :=
  match role r with
  | .directive d => if Directive.isAlignmentName d.name then d.alignment.toOption else none
  | _ => none

/-- The record is a label of read-only data or a switch of sections. -/
def isBreak (r : Record) : Bool :=
  match role r with
  | .switch | .label _ => true
  | _ => false

/-- The alignments that the last of the records ask for, behind the last label or switch. -/
def asked (records : List Record) : List ℤ :=
  (records.reverse.takeWhile fun r => !isBreak r).filterMap alignment?

/-- The entity size of the section that the last of the records are in. -/
def entity (records : List Record) : ℤ :=
  ((records.reverse.findSome? switches).bind fun d => d.entitySize.toOption).getD 1

/-- The alignments declared for a label behind the records: those that are asked for, the entity
size, and one. -/
def declared (front : List Record) : Set ℤ := {n | n = 1 ∨ n = entity front ∨ n ∈ asked front}

/-- The blob begins at a label of read-only data behind the records, with the greatest alignment
declared for it. -/
structure BeginsAt (front : List Record) (l : Label) (b : Blob) : Prop where
  isReadOnly : Section.isReadOnly (l.sect.getD "") = true
  name : l.name = b.symbol
  align : IsGreatest (declared front) b.align

lemma asked_append (front : List Record) (r : Record) :
    asked (front ++ [r]) = if isBreak r then [] else (alignment? r).toList ++ asked front := by
  rw [asked, List.reverse_append, List.reverse_singleton, List.singleton_append,
    List.takeWhile_cons]
  cases isBreak r with
  | true => rfl
  | false =>
    cases halign : alignment? r with
    | none => simp [halign, asked]
    | some n => simp [halign, asked]

lemma entity_append (front : List Record) (r : Record) :
    entity (front ++ [r]) =
      (switches r).elim (entity front) fun d => d.entitySize.toOption.getD 1 := by
  rw [entity, List.reverse_append, List.reverse_singleton, List.singleton_append,
    List.findSome?_cons]
  cases switches r <;> rfl

/-! ## What the index keeps of them -/

namespace State

/-- What a directive of read-only data does to the alignment for the next label. -/
lemma directive_align {s t : State} {d : Directive} (h : s.directive d = .ok t) :
    t.entity = s.entity ∧
      t.align = (if Directive.isAlignmentName d.name then d.alignment.toOption else none).elim
        s.align (max s.align) := by
  cases directive_eq_ok.mp h with
  | align halign hn =>
    rw [if_pos halign, hn]
    exact ⟨rfl, rfl⟩
  | data hname _ _ _ =>
    have halign : ¬ Directive.isAlignmentName d.name = true := fun halign => by
      rw [Directive.isDataName_of_isAlignmentName halign] at hname
      cases hname
    rw [if_neg halign]
    exact ⟨rfl, rfl⟩
  | nothing halign _ =>
    rw [if_neg (Bool.eq_false_iff.mp halign)]
    exact ⟨rfl, rfl⟩

/-- The entity size is that of the section selected last. -/
lemma record_entity {s t : State} {r : Record} (h : s.record r = .ok t) :
    t.entity = (switches r).elim s.entity fun d => d.entitySize.toOption.getD 1 := by
  cases record_eq_ok.mp h with
  | switch hswitch hn =>
    rw [hswitch, Option.elim_some, hn]
    rfl
  | label hrole =>
    rw [switches_eq_none (by simp [hrole])]
    rfl
  | directive hrole hd =>
    rw [switches_eq_none (by simp [hrole])]
    exact (directive_align hd).1
  | ignored hrole _ =>
    rw [switches_eq_none (by simp [hrole])]
    rfl

/-- Labels and switches end what is asked for; an alignment directive asks for more. -/
lemma record_align {s t : State} {r : Record} (h : s.record r = .ok t) :
    t.align = if isBreak r then 1 else (alignment? r).elim s.align (max s.align) := by
  unfold isBreak alignment?
  cases record_eq_ok.mp h with
  | switch hswitch _ =>
    rw [role_of_switches hswitch]
    rfl
  | label hrole =>
    rw [hrole]
    rfl
  | directive hrole hd =>
    rw [hrole]
    exact (directive_align hd).2
  | ignored hrole _ =>
    rw [hrole]
    rfl

/-- The index of the records so far is aligned: the alignment kept for the next label is the
greatest one asked for, and every blob begins with a label and has the greatest alignment declared
for it. -/
structure Tracks (front : List Record) (s : State) : Prop where
  entity : s.entity = DataIndex.entity front
  align : IsGreatest {n | n = 1 ∨ n ∈ asked front} s.align
  blobs : ∀ b ∈ s.index.blobs, ∃ before l after, front = before ++ .label l :: after ∧
    BeginsAt before l b.blob

variable {front : List Record} {s t : State}

/-- The label behind the records begins a blob with the greatest alignment declared for it. -/
lemma Tracks.newBlob (h : s.Tracks front) (l : Label) :
    IsGreatest (declared front) (s.newBlob l).blob.align := by
  obtain ⟨hmem, hle⟩ := h.align
  change IsGreatest _ (max s.align s.entity)
  rw [h.entity]
  constructor
  · rcases max_choice s.align (DataIndex.entity front) with heq | heq
    · rw [heq]
      exact hmem.imp_right .inr
    · rw [heq]
      exact .inr (.inl rfl)
  · rintro n (hn | rfl | hn)
    · exact le_max_of_le_left (hle (.inl hn))
    · exact le_max_right _ _
    · exact le_max_of_le_left (hle (.inr hn))

/-- A record more leaves a blob its place. -/
lemma exists_beginsAt_append {b : Blob} {r : Record}
    (h : ∃ before l after, front = before ++ .label l :: after ∧ BeginsAt before l b) :
    ∃ before l after, front ++ [r] = before ++ .label l :: after ∧ BeginsAt before l b := by
  obtain ⟨before, l, after, rfl, hplace⟩ := h
  exact ⟨before, l, after ++ [r], by rw [List.append_assoc, List.cons_append], hplace⟩

/-- One record more. -/
lemma Tracks.record (h : s.Tracks front) {r : Record} (hr : s.record r = .ok t) :
    t.Tracks (front ++ [r]) := by
  refine ⟨?_, ?_, ?_⟩
  · rw [record_entity hr, entity_append, h.entity]
  · rw [record_align hr, asked_append]
    split_ifs
    · exact ⟨.inl rfl, fun n hn => (hn.resolve_right List.not_mem_nil).le⟩
    · cases alignment? r with
      | none => exact h.align
      | some n =>
        simp only [Option.elim_some, Option.toList_some, List.singleton_append, List.mem_cons]
        obtain ⟨hmem, hle⟩ := h.align
        refine ⟨?_, ?_⟩
        · rcases max_choice s.align n with heq | heq
          · rw [heq]
            exact hmem.imp_right .inr
          · rw [heq]
            exact .inr (.inl rfl)
        · rintro m (hm | rfl | hm)
          · exact le_max_of_le_left (hle (.inl hm))
          · exact le_max_right _ _
          · exact le_max_of_le_left (hle (.inr hm))
  · intro b hb
    cases record_eq_ok.mp hr with
    | switch _ _ => exact exists_beginsAt_append (h.blobs b hb)
    | @label l hrole =>
      obtain ⟨rfl, hreadOnly⟩ := of_role_label hrole
      obtain ⟨-, ⟨last, rest, -, hblobs, -, hnew⟩ | ⟨-, hnew⟩⟩ := s.label_cases l
      · rw [hnew] at hb
        rcases List.mem_cons.mp hb with rfl | hb
        · exact exists_beginsAt_append (h.blobs last (hblobs ▸ List.mem_cons_self))
        · exact exists_beginsAt_append (h.blobs b (hblobs ▸ List.mem_cons_of_mem _ hb))
      · rw [hnew] at hb
        rcases List.mem_cons.mp hb with rfl | hb
        · exact ⟨front, l, [], rfl, hreadOnly, rfl, h.newBlob l⟩
        · exact exists_beginsAt_append (h.blobs b hb)
    | directive _ hd =>
      cases directive_eq_ok.mp hd with
      | align _ _ => exact exists_beginsAt_append (h.blobs b hb)
      | @data last rest blob _ _ hblobs hblob =>
        rcases List.mem_cons.mp hb with rfl | hb
        · obtain ⟨before, l, after, heq, hreadOnly, hname, halign⟩ :=
            h.blobs last (hblobs ▸ List.mem_cons_self)
          rw [← Blob.extend_symbol hblob] at hname
          rw [← Blob.extend_align hblob] at halign
          exact exists_beginsAt_append ⟨before, l, after, heq, hreadOnly, hname, halign⟩
        · exact exists_beginsAt_append (h.blobs b (hblobs ▸ List.mem_cons_of_mem _ hb))
      | nothing _ _ => exact exists_beginsAt_append (h.blobs b hb)
    | ignored _ _ => exact exists_beginsAt_append (h.blobs b hb)

/-- All records. -/
lemma Tracks.run (h : s.Tracks front) {back : List Record}
    (hback : back.foldlM State.record s = .ok t) : t.Tracks (front ++ back) := by
  induction back generalizing front s with
  | nil =>
    obtain rfl := pure_eq_ok.mp hback
    rw [List.append_nil]
    exact h
  | cons r back ih =>
    rw [List.foldlM_cons] at hback
    obtain ⟨u, hu, hback⟩ := bind_eq_ok.mp hback
    have hrun := ih (h.record hu) hback
    rwa [List.append_assoc] at hrun

end State

/-- A blob that is found begins at a label of read-only data, with the greatest alignment declared
for it. -/
lemma exists_beginsAt {records : List Record} {x : DataIndex} (h : ofRecords records = .ok x)
    {symbol : Option String} {b : Blob} (hb : x.lookup symbol = .ok b) :
    ∃ front l back, records = front ++ .label l :: back ∧ BeginsAt front l b := by
  obtain ⟨t, ht, rfl⟩ := map_eq_ok.mp h
  have hstart : State.Tracks [] {} :=
    ⟨rfl, ⟨.inl rfl, fun n hn => (hn.resolve_right List.not_mem_nil).le⟩, fun b hb => nomatch hb⟩
  obtain ⟨s, -, hfind⟩ := lookup_eq_ok hb
  obtain ⟨c, hc, -, rfl⟩ := exists_of_find? hfind
  exact (hstart.run ht).blobs c hc

end DataIndex

end AsmBridge
