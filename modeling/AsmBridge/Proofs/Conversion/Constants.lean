import AsmBridge.Conversion.Unit
import AsmBridge.Proofs.Data.Index
import AsmBridge.Proofs.Pool.Layout

/-!
# Filling the pool of a unit

Before any function is converted, the data of all addresses relative to the instruction pointer are
requested for the pool. Whatever has been requested, the pool holds data of the index only
(`requireConstants_isFilled`), and a function without a defect has data for all its addresses
(`exists_lookup_of_requireConstants`). Together with the layout of the pool this places the data of
a symbol (`Pool.IsFilledFrom.data_of_offset`).
-/

namespace AsmBridge

/-- Every slot of the pool has an alignment and holds a blob that a symbol names in the index. -/
def Pool.IsFilledFrom (x : DataIndex) (p : Pool) : Prop :=
  ∀ s ∈ p.slots, 0 < s.align ∧ ∃ symbol, x.lookup symbol = .ok s.blob

lemma SourceFunction.mem_addresses {f : SourceFunction} {i : Instruction} {a : Address} :
    (i, a) ∈ f.addresses ↔ i ∈ f.instructions ∧ a ∈ i.addresses := by
  rw [addresses, List.mem_flatMap]
  constructor
  · rintro ⟨j, hj, h⟩
    obtain ⟨b, hb, heq⟩ := List.mem_map.mp h
    obtain ⟨rfl, rfl⟩ := Prod.mk.inj heq
    exact ⟨hj, hb⟩
  · rintro ⟨hi, ha⟩
    exact ⟨i, hi, List.mem_map.mpr ⟨a, ha, rfl⟩⟩

namespace Pool

/-- A use of a blob of the index keeps the pool filled from it. -/
lemma IsFilledFrom.withUse {x : DataIndex} {p : Pool} (h : p.IsFilledFrom x) {b : Blob}
    {symbol : Option String} (hb : x.lookup symbol = .ok b) (access : ℤ) :
    (p.withUse b access).IsFilledFrom x := by
  intro s hs
  rcases mem_noteUse hs with ⟨hblob, halign⟩ | ⟨t, ht, hblob, halign⟩
  · rw [hblob, halign]
    exact ⟨wanted_pos b access, symbol, hb⟩
  · obtain ⟨hpos, hlookup⟩ := h t ht
    rw [hblob]
    exact ⟨Nat.lt_of_lt_of_le hpos halign, hlookup⟩

/-- At the offset of a symbol that labels data at one place only, a pool filled from the index holds
the data of the symbol. -/
lemma IsFilledFrom.data_of_offset {x : DataIndex} (hx : x.IsNamed) {p : Pool}
    (h : p.IsFilledFrom x) {symbol : String} {n : ℕ} {b : Blob}
    (hn : p.offset? (some symbol) = some n) (hb : x.lookup (some symbol) = .ok b)
    (honce : x.LabelsOnce symbol) : (p.data.drop n).take b.data.length = b.data := by
  obtain ⟨s, hs, hsymbol, hdata⟩ := Pool.data_of_offset (fun s hs => (h s hs).1) hn
  obtain ⟨-, other, hother⟩ := h s hs
  rw [← DataIndex.eq_of_symbol hx hother hsymbol hb honce]
  exact hdata

end Pool

/-! ## Requests -/

section Requests

variable {x : DataIndex} {f : SourceFunction}

/-- A request adds the blob of an address relative to the instruction pointer. -/
lemma requireAddress_eq_ok_iff {p p' : Pool} {q : Instruction × Address} :
    requireAddress x f p q = .ok p' ↔
      (q.2.ripRelative = false ∧ p' = p) ∨
        q.2.ripRelative = true ∧ ∃ b, x.lookup q.2.symbol = .ok b ∧
          p' = p.withUse b q.2.accessBytes := by
  obtain ⟨i, a⟩ := q
  simp only [requireAddress]
  cases a.ripRelative with
  | false => simp [eq_comm]
  | true =>
    rw [if_neg (by simp), bind_eq_ok]
    constructor
    · rintro ⟨b, hb, hp'⟩
      exact .inr ⟨rfl, b, mapError_eq_ok.mp hb, (pure_eq_ok.mp hp').symm⟩
    · rintro (⟨hfalse, -⟩ | ⟨-, b, hb, rfl⟩)
      · cases hfalse
      · exact ⟨b, mapError_eq_ok.mpr hb, rfl⟩

/-- A request that succeeds has found the data of its address and keeps the pool filled. -/
lemma requireAddress_eq_ok {p q : Pool} {i : Instruction} {a : Address}
    (h : requireAddress x f p (i, a) = .ok q) :
    (p.IsFilledFrom x → q.IsFilledFrom x) ∧
      (a.ripRelative = true → ∃ b, x.lookup a.symbol = .ok b) := by
  rcases requireAddress_eq_ok_iff.mp h with ⟨hfalse, rfl⟩ | ⟨-, b, hb, rfl⟩
  · exact ⟨id, fun hrip => nomatch hfalse.symm.trans hrip⟩
  · exact ⟨fun hp => hp.withUse hb _, fun _ => ⟨b, hb⟩⟩

lemma requireAll_isFilled {ps : List (Instruction × Address)} {p : Pool}
    (h : p.IsFilledFrom x) : (requireAll x f p ps).1.IsFilledFrom x := by
  induction ps generalizing p with
  | nil => exact h
  | cons a rest ih =>
    rw [requireAll]
    split
    · rename_i q hq
      exact ih ((requireAddress_eq_ok hq).1 h)
    · exact h

/-- Requests without a defect have found the data of all their addresses. -/
lemma exists_lookup_of_requireAll {ps : List (Instruction × Address)} {p : Pool}
    (h : (requireAll x f p ps).2 = none) {i : Instruction} {a : Address} (ha : (i, a) ∈ ps)
    (hrip : a.ripRelative = true) : ∃ b, x.lookup a.symbol = .ok b := by
  induction ps generalizing p with
  | nil => cases ha
  | cons c rest ih =>
    rw [requireAll] at h
    split at h
    · rename_i q hq
      rcases List.mem_cons.mp ha with rfl | ha
      · exact (requireAddress_eq_ok hq).2 hrip
      · exact ih h ha
    · cases h

/-- One function more: the pool with its data, and its defect by its label. -/
def requireFunction (x : DataIndex) (acc : Pool × List (String × Diagnostic))
    (f : SourceFunction) : Pool × List (String × Diagnostic) :=
  let found := requireAll x f acc.1 f.addresses
  (found.1, (found.2.map fun d => (f.label, d)).toList ++ acc.2)

lemma requireConstants_eq (x : DataIndex) (name : String) (fs : List SourceFunction) :
    requireConstants x name fs = fs.foldl (requireFunction x) ({ name := name }, []) := by
  rw [requireConstants]
  congr 1
  funext ⟨p, failed⟩ f
  cases hd : requireAll x f p f.addresses with
  | mk q d => cases d <;> simp [requireFunction, hd]

lemma foldl_requireFunction_isFilled {fs : List SourceFunction}
    {acc : Pool × List (String × Diagnostic)} (h : acc.1.IsFilledFrom x) :
    (fs.foldl (requireFunction x) acc).1.IsFilledFrom x := by
  induction fs generalizing acc with
  | nil => exact h
  | cons f rest ih => exact ih (requireAll_isFilled h)

/-- A label with a defect keeps one. -/
lemma foldl_requireFunction_lookup {fs : List SourceFunction}
    {acc : Pool × List (String × Diagnostic)} {l : String}
    (h : (fs.foldl (requireFunction x) acc).2.lookup l = none) : acc.2.lookup l = none := by
  induction fs generalizing acc with
  | nil => exact h
  | cons f rest ih =>
    have hnone := ih h
    rw [requireFunction, List.lookup_append, Option.or_eq_none_iff] at hnone
    exact hnone.2

/-- A function whose label is left without a defect had none when it was its turn. -/
lemma exists_turn_of_foldl {fs : List SourceFunction} {acc : Pool × List (String × Diagnostic)}
    {g : SourceFunction} (hg : g ∈ fs)
    (h : (fs.foldl (requireFunction x) acc).2.lookup g.label = none) :
    ∃ front back, fs = front ++ g :: back ∧
      (requireAll x g (front.foldl (requireFunction x) acc).1 g.addresses).2 = none := by
  obtain ⟨front, back, rfl⟩ := List.append_of_mem hg
  refine ⟨front, back, rfl, ?_⟩
  rw [List.foldl_append, List.foldl_cons] at h
  have hnone := foldl_requireFunction_lookup h
  cases hd : (requireAll x g (front.foldl (requireFunction x) acc).1 g.addresses).2 with
  | none => rfl
  | some d => simp [requireFunction, hd] at hnone

end Requests

variable {x : DataIndex} {name : String} {fs : List SourceFunction}

/-- The pool of a unit holds data of the index only. -/
lemma requireConstants_isFilled : (requireConstants x name fs).1.IsFilledFrom x := by
  rw [requireConstants_eq]
  refine foldl_requireFunction_isFilled ?_
  intro s hs
  cases hs

/-- A function without a defect has data for all its addresses relative to the instruction
pointer. -/
lemma exists_lookup_of_requireConstants {f : SourceFunction} (hf : f ∈ fs)
    (h : (requireConstants x name fs).2.lookup f.label = none) {i : Instruction} {a : Address}
    (hi : i ∈ f.instructions) (ha : a ∈ i.addresses) (hrip : a.ripRelative = true) :
    ∃ b, x.lookup a.symbol = .ok b := by
  rw [requireConstants_eq] at h
  obtain ⟨front, -, -, hturn⟩ := exists_turn_of_foldl hf h
  exact exists_lookup_of_requireAll hturn (SourceFunction.mem_addresses.mpr ⟨hi, ha⟩) hrip

end AsmBridge
