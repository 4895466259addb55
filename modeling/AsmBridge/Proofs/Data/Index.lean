import AsmBridge.Proofs.Data.Steps

/-!
# Names of constant data

A blob goes by the first of its labels, and this label names it as the others do
(`DataIndex.ofRecords_isNamed`). A label that stands at two places of the read-only data names the
later blob although the earlier one may go by it. Where a label stands at one place only, the blob
that goes by it is the blob that it names (`DataIndex.eq_of_symbol`).
-/

namespace AsmBridge

/-- More data leave a blob its name. -/
lemma Blob.extend_symbol {b c : Blob} {d : Directive} (h : b.extend d = .ok c) :
    c.symbol = b.symbol := by
  rcases Blob.extend_eq_ok h with ⟨bytes, -, rfl⟩ | ⟨e, -, rfl⟩
  · rfl
  · rfl

namespace DataIndex

/-- Every blob goes by one of its labels. -/
def IsNamed (x : DataIndex) : Prop := ∀ b ∈ x.blobs, b.blob.symbol ∈ b.labels

/-- The label stands at one blob at most. -/
def LabelsOnce (x : DataIndex) (symbol : String) : Prop :=
  ∀ b ∈ x.blobs, ∀ c ∈ x.blobs, symbol ∈ b.labels → symbol ∈ c.labels → b = c

instance (x : DataIndex) (symbol : String) : Decidable (x.LabelsOnce symbol) :=
  inferInstanceAs (Decidable (∀ b ∈ x.blobs, ∀ c ∈ x.blobs,
    symbol ∈ b.labels → symbol ∈ c.labels → b = c))

/-! ## Reading the data of a unit -/

lemma isNamed_label {s : State} (h : s.index.IsNamed) (l : Label) :
    (s.label l).index.IsNamed := by
  intro b hb
  have hnew : (s.newBlob l).blob.symbol ∈ (s.newBlob l).labels := List.mem_singleton.mpr rfl
  simp only [State.label] at hb
  split at hb
  · rename_i last rest hblobs
    have hlast := h last (hblobs ▸ List.mem_cons_self)
    split at hb
    · rcases List.mem_cons.mp hb with rfl | hb
      · exact List.mem_cons_of_mem _ hlast
      · exact h b (hblobs ▸ List.mem_cons_of_mem _ hb)
    · rcases List.mem_cons.mp hb with rfl | hb
      · exact hnew
      · exact h b (hblobs ▸ hb)
  · rw [List.mem_singleton] at hb
    exact hb ▸ hnew

lemma isNamed_directive {s t : State} {d : Directive} (h : s.index.IsNamed)
    (hd : s.directive d = .ok t) : t.index.IsNamed := by
  cases State.directive_eq_ok.mp hd with
  | align _ _ => exact h
  | @data last rest blob _ _ hblobs hblob =>
    intro b hb
    rcases List.mem_cons.mp hb with rfl | hb
    · have hlast := h last (hblobs ▸ List.mem_cons_self)
      simpa only [Blob.extend_symbol hblob] using hlast
    · exact h b (hblobs ▸ List.mem_cons_of_mem _ hb)
  | nothing _ _ => exact h

/-- One record more leaves every blob named. -/
lemma isNamed_record {s t : State} {r : Record} (hr : s.record r = .ok t)
    (h : s.index.IsNamed) : t.index.IsNamed := by
  cases State.record_eq_ok.mp hr with
  | switch _ _ => exact h
  | label _ => exact isNamed_label h _
  | directive _ hd => exact isNamed_directive h hd
  | ignored _ _ => exact h

/-- In the index of a unit every blob goes by one of its labels. -/
lemma ofRecords_isNamed {records : List Record} {x : DataIndex} (h : ofRecords records = .ok x) :
    x.IsNamed := by
  obtain ⟨s, hs, rfl⟩ := map_eq_ok.mp h
  refine foldlM_induction (fun s : State => s.index.IsNamed) ?_ hs ?_
  · intro s r t hr hs
    exact isNamed_record hr hs
  · intro b hb
    cases hb

/-! ## Finding data -/

lemma lookup_eq_ok {x : DataIndex} {symbol : Option String} {b : Blob}
    (h : x.lookup symbol = .ok b) : ∃ s, symbol = some s ∧ x.find? s = some b := by
  cases symbol with
  | none => cases h
  | some s =>
    simp only [lookup, Option.bind_some] at h
    refine ⟨s, rfl, ?_⟩
    split at h
    · split at h <;> cases h
    · rename_i c hc
      split at h
      · cases h
      · split at h
        · cases h
        · rw [hc, Except.ok.inj h]

/-- What is looked up is what is found, if it has data and no problem. -/
lemma lookup_eq_ok_iff {x : DataIndex} {s : String} {b c : Blob}
    (h : x.find? s = some c) :
    x.lookup (some s) = .ok b ↔ c.problem = none ∧ c.data.isEmpty = false ∧ c = b := by
  simp only [lookup, Option.bind_some, h]
  cases c.problem with
  | some reason => simp
  | none => cases c.data.isEmpty <;> simp

/-- A blob that is found is a blob of the index under the label. -/
lemma exists_of_find? {x : DataIndex} {symbol : String} {b : Blob}
    (h : x.find? symbol = some b) : ∃ c ∈ x.blobs, symbol ∈ c.labels ∧ c.blob = b := by
  obtain ⟨c, hfind, hc⟩ := Option.map_eq_some_iff.mp h
  have hlabel := List.find?_some hfind
  exact ⟨c, List.mem_of_find?_eq_some hfind, by simpa using hlabel, hc⟩

/-- A blob that goes by a label which stands at one place only is the blob that the label names. -/
lemma eq_of_symbol {x : DataIndex} (hx : x.IsNamed) {symbol : String} {other : Option String}
    {b c : Blob} (hb : x.lookup other = .ok b) (hsymbol : b.symbol = symbol)
    (hc : x.lookup (some symbol) = .ok c) (honce : x.LabelsOnce symbol) : b = c := by
  obtain ⟨t, -, hfound⟩ := lookup_eq_ok hb
  obtain ⟨s, hs, hc⟩ := lookup_eq_ok hc
  obtain rfl := Option.some.inj hs
  obtain ⟨u, hu, -, rfl⟩ := exists_of_find? hfound
  obtain ⟨v, hv, hlabel, rfl⟩ := exists_of_find? hc
  rw [honce u hu v hv (hsymbol ▸ hx u hu) hlabel]

end DataIndex

end AsmBridge
