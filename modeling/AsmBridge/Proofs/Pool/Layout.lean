import AsmBridge.Pool
import Mathlib.Data.Nat.Basic
import Mathlib.Tactic.Common

/-!
# Where the data of a pool lie

The slots of a pool lie one after another, each at the offset that its alignment asks for, so that
the contents of the pool show the data of every blob at the offset of its slot
(`Pool.data_of_offset`). A use of a blob adds its slot or widens one; it never takes the data of a
slot away (`mem_noteUse`).
-/

namespace AsmBridge

/-- Rounding up does not fall below the number. -/
lemma le_roundUp {n unit : ℕ} (h : 0 < unit) : n ≤ roundUp n unit := by
  have hmod := Nat.mod_lt (n + unit - 1) h
  have hdiv := Nat.div_add_mod' (n + unit - 1) unit
  rw [roundUp]
  omega

namespace Pool

/-! ## Uses of blobs -/

/-- Every blob asks for some alignment. -/
lemma wanted_pos (b : Blob) (access : ℤ) : 0 < wanted b access := by
  rw [wanted]
  omega

/-- A slot behind a use of a blob is the slot of this blob or one that was there before, perhaps
with a larger alignment. -/
lemma mem_noteUse {b : Blob} {align : ℕ} {slots : List PoolSlot} {s : PoolSlot}
    (h : s ∈ noteUse b align slots) :
    (s.blob = b ∧ s.align = align) ∨ ∃ t ∈ slots, s.blob = t.blob ∧ t.align ≤ s.align := by
  induction slots with
  | nil =>
    rw [noteUse, List.mem_singleton] at h
    exact .inl ⟨congrArg PoolSlot.blob h, congrArg PoolSlot.align h⟩
  | cons t rest ih =>
    rw [noteUse] at h
    split at h
    · rcases List.mem_cons.mp h with rfl | h
      · exact .inr ⟨t, List.mem_cons_self, rfl, le_max_left _ _⟩
      · exact .inr ⟨s, List.mem_cons_of_mem _ h, rfl, le_rfl⟩
    · rcases List.mem_cons.mp h with rfl | h
      · exact .inr ⟨s, List.mem_cons_self, rfl, le_rfl⟩
      · rcases ih h with hb | ⟨u, hu, hs⟩
        · exact .inl hb
        · exact .inr ⟨u, List.mem_cons_of_mem _ hu, hs⟩

/-! ## Offsets -/

lemma length_offsetsFrom (start : ℕ) (slots : List PoolSlot) :
    (offsetsFrom start slots).length = slots.length := by
  induction slots generalizing start with
  | nil => rfl
  | cons s rest ih => rw [offsetsFrom, List.length_cons, ih, List.length_cons]

/-- Every slot has an offset. -/
lemma map_fst_zip_offsets (p : Pool) : (p.slots.zip p.offsets).map Prod.fst = p.slots := by
  refine List.map_fst_zip ?_
  rw [offsets, length_offsetsFrom]

/-- The data of every slot stand among the bytes of the slots, at the offset of the slot. -/
lemma bytesFrom_of_mem {slots : List PoolSlot} (hpos : ∀ s ∈ slots, 0 < s.align) {start n : ℕ}
    {s : PoolSlot} (h : (s, n) ∈ slots.zip (offsetsFrom start slots)) :
    ∃ front back, bytesFrom start slots = front ++ (s.blob.data ++ back) ∧
      start + front.length = n := by
  induction slots generalizing start with
  | nil => simp at h
  | cons t rest ih =>
    have hle : start ≤ roundUp start t.align := le_roundUp (hpos t List.mem_cons_self)
    rw [offsetsFrom, List.zip_cons_cons] at h
    rcases List.mem_cons.mp h with heq | h
    · obtain ⟨rfl, rfl⟩ := Prod.mk.inj heq
      refine ⟨List.replicate (roundUp start s.align - start) 0,
        bytesFrom (roundUp start s.align + s.blob.data.length) rest, ?_, ?_⟩
      · rw [bytesFrom, List.append_assoc]
      · rw [List.length_replicate]
        omega
    · obtain ⟨front, back, hbytes, hlen⟩ :=
        ih (fun u hu => hpos u (List.mem_cons_of_mem _ hu)) h
      refine ⟨List.replicate (roundUp start t.align - start) 0 ++ t.blob.data ++ front, back,
        ?_, ?_⟩
      · rw [bytesFrom, hbytes]
        simp only [List.append_assoc]
      · rw [List.length_append, List.length_append, List.length_replicate]
        omega

/-- The contents of a pool show the data of a slot at its offset. -/
lemma data_of_mem {p : Pool} (hpos : ∀ s ∈ p.slots, 0 < s.align) {s : PoolSlot} {n : ℕ}
    (h : (s, n) ∈ p.slots.zip p.offsets) :
    (p.data.drop n).take s.blob.data.length = s.blob.data := by
  obtain ⟨front, back, hbytes, hlen⟩ := bytesFrom_of_mem hpos h
  have hdrop : front.length = n := by omega
  rw [data, hbytes, List.append_assoc, ← hdrop, List.drop_left, List.append_assoc,
    List.take_left]

/-- The contents of a pool show the data of a slot at the offset of its symbol. -/
lemma data_of_offset {p : Pool} (hpos : ∀ s ∈ p.slots, 0 < s.align) {symbol : String} {n : ℕ}
    (h : p.offset? (some symbol) = some n) :
    ∃ s ∈ p.slots, s.blob.symbol = symbol ∧
      (p.data.drop n).take s.blob.data.length = s.blob.data := by
  obtain ⟨⟨s, m⟩, hfind, rfl⟩ := Option.map_eq_some_iff.mp h
  have hmem := List.mem_of_find?_eq_some hfind
  have hsymbol := List.find?_some hfind
  exact ⟨s, (List.of_mem_zip hmem).1, by simpa using hsymbol, data_of_mem hpos hmem⟩

/-- The offsets of a pool are those of symbols. -/
lemma exists_symbol_of_offset {p : Pool} {symbol : Option String} {n : ℕ}
    (h : p.offset? symbol = some n) : ∃ s, symbol = some s := by
  obtain ⟨q, hfind, -⟩ := Option.map_eq_some_iff.mp h
  have hsymbol := List.find?_some hfind
  exact ⟨q.1.blob.symbol, (by simpa using hsymbol : some _ = symbol).symm⟩

end Pool

end AsmBridge
