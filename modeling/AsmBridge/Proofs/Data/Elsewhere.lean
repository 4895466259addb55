import AsmBridge.Pool
import AsmBridge.Proofs.Data.Placement

/-!
# Data wherever their records stand

A blob knows its line, and the problem with one that cannot be read names a line. Apart from that
the data of a unit do not depend on where its records stand (`IsMoved.exists_ofRecords`), nor does
the pool that is made of them: pools of the same data in the same order have the same layout and the
same contents.
-/

namespace AsmBridge

/-- The second blob is the first one elsewhere: it has a problem if that has one, in other words
perhaps. -/
structure Blob.IsMoved (b b' : Blob) : Prop where
  symbol : b'.symbol = b.symbol
  data : b'.data = b.data
  align : b'.align = b.align
  sect : b'.sect = b.sect
  problem : b'.problem.isSome = b.problem.isSome

structure LabelledBlob.IsMoved (b b' : LabelledBlob) : Prop where
  labels : b'.labels = b.labels
  blob : b.blob.IsMoved b'.blob

/-- A blob elsewhere, with the data of one more directive. -/
lemma Blob.IsMoved.exists_extend {b b' c : Blob} (h : b.IsMoved b') {d d' : Directive}
    (hd : d'.unplaced = d.unplaced) (hc : b.extend d = .ok c) :
    ∃ c', b'.extend d' = .ok c' ∧ c.IsMoved c' := by
  obtain ⟨c', hc', ⟨bytes, rfl, rfl⟩ | ⟨reason, reason', rfl, rfl⟩⟩ :=
    Blob.exists_extend hc hd b'
  · exact ⟨_, hc', h.symbol, congrArg (· ++ _) h.data, h.align, h.sect, h.problem⟩
  · exact ⟨_, hc', h.symbol, h.data, h.align, h.sect, rfl⟩

namespace DataIndex

/-- The second index is the first one, of records elsewhere. -/
structure IsMoved (x y : DataIndex) : Prop where
  blobs : List.Forall₂ LabelledBlob.IsMoved x.blobs y.blobs
  writable : y.writable = x.writable

namespace State

structure IsMoved (s t : State) : Prop where
  index : s.index.IsMoved t.index
  inBlob : t.inBlob = s.inBlob
  align : t.align = s.align
  entity : t.entity = s.entity

namespace IsMoved

variable {s s' t : State}

lemma label (h : s.IsMoved t) {l l' : Label} (hl : l'.unplaced = l.unplaced) :
    (s.label l).IsMoved (t.label l') := by
  have hname : l'.name = l.name := (congrArg Label.name hl :)
  have hsect : l'.sect = l.sect := (congrArg Label.sect hl :)
  have hnew : (s.newBlob l).IsMoved (t.newBlob l') := by
    refine ⟨congrArg (fun n => [n]) hname, hname, rfl, ?_, hsect, rfl⟩
    change max t.align t.entity = max s.align s.entity
    rw [h.align, h.entity]
  have hblobs := h.index.blobs
  unfold State.label
  refine ⟨⟨?_, h.index.writable⟩, rfl, rfl, h.entity⟩
  dsimp only
  cases hs : s.index.blobs with
  | nil =>
    rw [hs] at hblobs
    rw [List.forall₂_nil_left_iff.mp hblobs]
    exact .cons hnew .nil
  | cons last rest =>
    rw [hs] at hblobs
    obtain ⟨last', rest', hlast, hrest, ht⟩ := List.forall₂_cons_left_iff.mp hblobs
    rw [ht]
    dsimp only
    rw [h.inBlob, hlast.blob.data]
    split
    · exact .cons ⟨congrArg₂ _ hname hlast.labels, hlast.blob⟩ hrest
    · exact .cons hnew (.cons hlast hrest)

lemma exists_directive (h : s.IsMoved t) {d d' : Directive} (hd : d'.unplaced = d.unplaced)
    (hs : s.directive d = .ok s') : ∃ t', t.directive d' = .ok t' ∧ s'.IsMoved t' := by
  have hname : d'.name = d.name := (congrArg Directive.name hd :)
  have hblobs := h.index.blobs
  cases directive_eq_ok.mp hs with
  | @align n halign hn =>
    have ht : t.Directs d' { t with align := max t.align n } :=
      .align (hname ▸ halign) ((Directive.alignment_of_unplaced hd).trans hn)
    exact ⟨_, directive_eq_ok.mpr ht, h.index, h.inBlob, congrArg (max · n) h.align, h.entity⟩
  | data hdata hin hlast hblob =>
    rw [hlast] at hblobs
    obtain ⟨last', rest', hmoved, hrest, hlast'⟩ := List.forall₂_cons_left_iff.mp hblobs
    obtain ⟨c', hc', hmoved'⟩ := hmoved.blob.exists_extend hd hblob
    exact ⟨_, directive_eq_ok.mpr (.data (hname ▸ hdata) (h.inBlob.trans hin) hlast' hc'),
      ⟨.cons ⟨hmoved.labels, hmoved'⟩ hrest, h.index.writable⟩, h.inBlob, h.align, h.entity⟩
  | nothing halign hnone =>
    refine ⟨t, directive_eq_ok.mpr (.nothing (hname ▸ halign) fun hdata hin => ?_), h⟩
    rw [hnone (hname ▸ hdata) (h.inBlob.symm.trans hin)] at hblobs
    exact List.forall₂_nil_left_iff.mp hblobs

end IsMoved

/-- A state elsewhere goes on so. -/
lemma isMoved_isKept : IsKept IsMoved where
  label := fun h hl => h.label hl
  directive := fun h hd hs => h.exists_directive hd hs
  switch := fun _ h => ⟨h.index, rfl, rfl, rfl⟩
  writable := fun names h =>
    ⟨⟨h.index.blobs, congrArg (names ++ ·) h.index.writable⟩, h.inBlob, h.align, h.entity⟩

end State

variable {x y : DataIndex}

/-- The data of a unit do not depend on where its records stand. -/
lemma exists_ofRecords {records records' : List Record}
    (heq : records'.map (·.unplaced) = records.map (·.unplaced)) (hx : ofRecords records = .ok x) :
    ∃ y, ofRecords records' = .ok y ∧ x.IsMoved y := by
  obtain ⟨s, hs, rfl⟩ := map_eq_ok.mp hx
  have hinit : State.IsMoved {} {} := ⟨⟨.nil, rfl⟩, rfl, rfl, rfl⟩
  obtain ⟨t, ht, h⟩ :=
    State.isMoved_isKept.exists_run hinit (map_eq_map_iff_forall₂.mp heq) hs
  exact ⟨t.index, map_eq_ok.mpr ⟨t, ht, rfl⟩, h.index⟩

lemma IsMoved.find? (h : x.IsMoved y) (symbol : String) :
    Option.Rel Blob.IsMoved (x.find? symbol) (y.find? symbol) := by
  obtain ⟨blobs, _⟩ := x
  obtain ⟨blobs', _⟩ := y
  have hblobs : List.Forall₂ LabelledBlob.IsMoved blobs blobs' := h.blobs
  unfold DataIndex.find?
  clear h
  dsimp only
  induction hblobs with
  | nil => exact .none
  | cons hb _ ih =>
    rw [List.find?_cons, List.find?_cons, hb.labels]
    split
    · exact .some hb.blob
    · exact ih

/-- What is found in an index is found in that of the records elsewhere. -/
lemma IsMoved.exists_lookup (h : x.IsMoved y) {symbol : Option String} {b : Blob}
    (hb : x.lookup symbol = .ok b) : ∃ b', y.lookup symbol = .ok b' ∧ b.IsMoved b' := by
  have hrel : Option.Rel Blob.IsMoved (symbol.bind x.find?) (symbol.bind y.find?) := by
    cases symbol with
    | none => exact .none
    | some name => exact h.find? name
  unfold lookup at hb ⊢
  dsimp only at hb ⊢
  generalize symbol.bind x.find? = found, symbol.bind y.find? = found' at hrel hb ⊢
  cases hrel with
  | none =>
    dsimp only at hb
    split at hb <;> cases hb
  | @some c c' hc =>
    dsimp only at hb ⊢
    cases hproblem : c.problem with
    | some reason =>
      rw [hproblem] at hb
      cases hb
    | none =>
      have hproblem' : c'.problem = none := by
        rw [← Option.not_isSome_iff_eq_none, hc.problem, hproblem]
        simp
      rw [hproblem] at hb
      rw [hproblem', hc.data]
      dsimp only at hb ⊢
      split_ifs at hb ⊢
      obtain rfl := Except.ok.inj hb
      exact ⟨c', rfl, hc⟩

end DataIndex

/-! ## Pools -/

structure PoolSlot.IsMoved (s s' : PoolSlot) : Prop where
  blob : s.blob.IsMoved s'.blob
  align : s'.align = s.align

namespace Pool

/-- The second pool holds the data of the first one, read elsewhere. -/
structure IsMoved (p q : Pool) : Prop where
  name : q.name = p.name
  slots : List.Forall₂ PoolSlot.IsMoved p.slots q.slots
  isFixed : q.isFixed = p.isFixed

section Slots

variable {slots slots' : List PoolSlot} (h : List.Forall₂ PoolSlot.IsMoved slots slots')
include h

lemma forall₂_noteUse {b b' : Blob} (hb : b.IsMoved b') (align : ℕ) :
    List.Forall₂ PoolSlot.IsMoved (noteUse b align slots) (noteUse b' align slots') := by
  induction h with
  | nil => exact .cons ⟨hb, rfl⟩ .nil
  | cons hs hrest ih =>
    rw [noteUse, noteUse, hs.blob.symbol, hb.symbol]
    split
    · exact .cons ⟨hs.blob, by rw [hs.align]⟩ hrest
    · exact .cons hs ih

lemma offsetsFrom_eq_of_isMoved (start : ℕ) : offsetsFrom start slots' = offsetsFrom start slots := by
  induction h generalizing start with
  | nil => rfl
  | cons hs _ ih => rw [offsetsFrom, offsetsFrom, hs.align, hs.blob.data, ih]

lemma endFrom_eq_of_isMoved (start : ℕ) : endFrom start slots' = endFrom start slots := by
  induction h generalizing start with
  | nil => rfl
  | cons hs _ ih => rw [endFrom, endFrom, hs.align, hs.blob.data, ih]

lemma bytesFrom_eq_of_isMoved (start : ℕ) : bytesFrom start slots' = bytesFrom start slots := by
  induction h generalizing start with
  | nil => rfl
  | cons hs _ ih => rw [bytesFrom, bytesFrom, hs.align, hs.blob.data, ih]

lemma foldl_align_eq_of_isMoved (n : ℕ) :
    slots'.foldl (fun n s => max n s.align) n = slots.foldl (fun n s => max n s.align) n := by
  induction h generalizing n with
  | nil => rfl
  | cons hs _ ih => rw [List.foldl_cons, List.foldl_cons, hs.align, ih]

end Slots

namespace IsMoved

variable {p q : Pool} (h : p.IsMoved q)
include h

lemma withUse {b b' : Blob} (hb : b.IsMoved b') (access : ℤ) :
    (p.withUse b access).IsMoved (q.withUse b' access) := by
  have hwanted : wanted b' access = wanted b access := by rw [wanted, wanted, hb.align]
  refine ⟨h.name, ?_, h.isFixed⟩
  rw [Pool.withUse, Pool.withUse, hwanted]
  exact forall₂_noteUse h.slots hb _

lemma fix : p.fix.IsMoved q.fix := ⟨h.name, h.slots, rfl⟩

lemma symbols_eq : q.slots.map (·.blob.symbol) = p.slots.map (·.blob.symbol) :=
  (map_eq_map_iff_forall₂.mpr (h.slots.imp fun _ _ hs => hs.blob.symbol.symm)).symm

lemma alignments_eq : q.slots.map (·.align) = p.slots.map (·.align) :=
  (map_eq_map_iff_forall₂.mpr (h.slots.imp fun _ _ hs => hs.align.symm)).symm

lemma offsets_eq : q.offsets = p.offsets := offsetsFrom_eq_of_isMoved h.slots 0

lemma size_eq : q.size = p.size := by
  rw [size, size, align, align, endFrom_eq_of_isMoved h.slots, foldl_align_eq_of_isMoved h.slots]

lemma data_eq : q.data = p.data := by
  rw [data, data, h.size_eq, bytesFrom_eq_of_isMoved h.slots, endFrom_eq_of_isMoved h.slots]

/-- Symbols and offsets are the same. -/
lemma placement_eq : q.placement = p.placement := by
  have hmap : ∀ r : Pool, r.placement = ((r.slots.map (·.blob.symbol)).zip r.offsets).map
      fun s => (s.1, if r.isFixed then some s.2 else none) := by
    intro r
    rw [placement, List.zip_map_left, List.map_map]
    rfl
  rw [hmap, hmap, h.symbols_eq, h.offsets_eq, h.isFixed]

lemma offset?_eq (symbol : Option String) : q.offset? symbol = p.offset? symbol := by
  have hmap : ∀ r : Pool, r.offset? symbol =
      (((r.slots.map (·.blob.symbol)).zip r.offsets).find? fun s => some s.1 == symbol).map
        (·.2) := by
    intro r
    rw [offset?, List.zip_map_left, List.find?_map, Option.map_map]
    rfl
  rw [hmap, hmap, h.symbols_eq, h.offsets_eq]

/-- Addresses are moved alike. -/
lemma rebase_eq : q.rebase = p.rebase := by
  funext a r
  rw [rebase, rebase, h.offset?_eq]

lemma contents_eq : q.contents = p.contents := by
  rw [contents, contents, h.size_eq, h.data_eq]

end IsMoved

end Pool

end AsmBridge
