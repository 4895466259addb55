import AsmBridge.Proofs.Pool.Layout
import Mathlib.Data.List.Nodup
import Mathlib.Tactic.Common

/-!
# The bytes of a pool

Every position of a pool lies in the slot of a blob, in the zeros between and behind the slots, or
outside the pool, and the contents show a byte of the blob, a zero, or nothing accordingly
(`Pool.content_byteAt`). A position near a slot, but not in it, has nothing to do with its blob.
-/

namespace AsmBridge

/-- The position lies in the slot, which is at an offset. -/
def PoolSlot.Covers (s : PoolSlot) (n : ℕ) (z : ℤ) : Prop := n ≤ z ∧ z < n + s.blob.data.length

namespace Pool

/-- The byte at a position of the contents, if it lies in them. -/
def byteAt (p : Pool) (z : ℤ) : Option UInt8 := if 0 ≤ z then p.data[z.toNat]? else none

/-- The slots with their offsets. -/
def placed (p : Pool) : List (PoolSlot × ℕ) := p.slots.zip p.offsets

/-- What a pool has at a position. -/
inductive Content (p : Pool) (z : ℤ) : Option UInt8 → Prop
  | datum {s : PoolSlot} {n : ℕ} (h : (s, n) ∈ p.placed) (hcovers : s.Covers n z) :
      Content p z s.blob.data[(z - n).toNat]?
  | padding (hnonneg : 0 ≤ z) (hlt : z < p.size) (h : ∀ q ∈ p.placed, ¬q.1.Covers q.2 z) :
      Content p z (some 0)
  | outside (h : z < 0 ∨ p.size ≤ z) : Content p z none

/-! ## Lengths -/

lemma length_bytesFrom {slots : List PoolSlot} (hpos : ∀ s ∈ slots, 0 < s.align) (start : ℕ) :
    start + (bytesFrom start slots).length = endFrom start slots := by
  induction slots generalizing start with
  | nil => rfl
  | cons s rest ih =>
    have hround : start ≤ roundUp start s.align := le_roundUp (hpos s List.mem_cons_self)
    have hrest := ih (fun t ht => hpos t (List.mem_cons_of_mem _ ht))
      (roundUp start s.align + s.blob.data.length)
    rw [endFrom, bytesFrom, ← hrest]
    simp only [List.length_append, List.length_replicate]
    omega

/-- The contents are as long as the size tells. -/
lemma length_data {p : Pool} (hpos : ∀ s ∈ p.slots, 0 < s.align) : p.data.length = p.size := by
  have hend := length_bytesFrom hpos 0
  have halign : 0 < p.align := by
    rw [align]
    exact List.foldlRecOn p.slots _ Nat.one_pos fun n hn s _ =>
      Nat.lt_of_lt_of_le hn (Nat.le_max_left n s.align)
  have hsize : endFrom 0 p.slots ≤ p.size := le_roundUp halign
  rw [data, List.length_append, List.length_replicate]
  omega

/-- No symbol has an offset behind the end. -/
lemma offset_le_size {p : Pool} (hpos : ∀ s ∈ p.slots, 0 < s.align) {symbol : Option String} {n : ℕ}
    (h : p.offset? symbol = some n) : n ≤ p.size := by
  obtain ⟨q, hfind, rfl⟩ := Option.map_eq_some_iff.mp h
  obtain ⟨front, back, hbytes, hlen⟩ := bytesFrom_of_mem hpos (List.mem_of_find?_eq_some hfind)
  rw [← length_data hpos, data, hbytes, List.length_append, List.length_append]
  omega

/-! ## Bytes -/

/-- A byte of the slots that lies in none of them is zero. -/
lemma bytesFrom_eq_zero {slots : List PoolSlot} (hpos : ∀ s ∈ slots, 0 < s.align) {start i : ℕ}
    (h : ∀ q ∈ slots.zip (offsetsFrom start slots), ¬q.1.Covers q.2 (start + i))
    (hi : i < (bytesFrom start slots).length) : (bytesFrom start slots)[i]? = some 0 := by
  induction slots generalizing start i with
  | nil => cases hi
  | cons s rest ih =>
    have hround : start ≤ roundUp start s.align := le_roundUp (hpos s List.mem_cons_self)
    rw [offsetsFrom, List.zip_cons_cons] at h
    obtain ⟨hfirst, hrest⟩ := List.forall_mem_cons.mp h
    rw [bytesFrom, List.append_assoc] at hi ⊢
    rcases Nat.lt_or_ge i (roundUp start s.align - start) with hlt | hge
    · rw [List.getElem?_append_left (by simpa using hlt), List.getElem?_replicate_of_lt hlt]
    · have hbehind : s.blob.data.length ≤ i - (roundUp start s.align - start) := by
        by_contra hin
        exact hfirst ⟨by push_cast; omega, by push_cast; omega⟩
      rw [List.getElem?_append_right (by simpa using hge), List.length_replicate,
        List.getElem?_append_right hbehind]
      refine ih (fun t ht => hpos t (List.mem_cons_of_mem _ ht)) ?_ ?_
      · intro q hq hcovers
        refine hrest q hq ?_
        obtain ⟨hlow, hhigh⟩ := hcovers
        constructor
        · push_cast at hlow
          omega
        · push_cast at hhigh
          omega
      · simp only [List.length_append, List.length_replicate] at hi
        omega

/-- The contents show the byte of a blob at a position in its slot. -/
lemma byteAt_of_covers {p : Pool} (hpos : ∀ s ∈ p.slots, 0 < s.align) {s : PoolSlot} {n : ℕ}
    (h : (s, n) ∈ p.placed) {z : ℤ} (hcovers : s.Covers n z) :
    p.byteAt z = s.blob.data[(z - n).toNat]? := by
  obtain ⟨front, back, hbytes, hlen⟩ := bytesFrom_of_mem hpos h
  obtain ⟨hlow, hhigh⟩ := hcovers
  rw [byteAt, if_pos (by omega), data, hbytes, List.append_assoc, List.append_assoc,
    List.getElem?_append_right (by omega), List.getElem?_append_left (by omega)]
  congr 1
  omega

/-- What the contents show at a position. -/
lemma content_byteAt {p : Pool} (hpos : ∀ s ∈ p.slots, 0 < s.align) (z : ℤ) :
    p.Content z (p.byteAt z) := by
  by_cases hin : 0 ≤ z ∧ z < p.size
  · obtain ⟨hnonneg, hlt⟩ := hin
    by_cases hcovers : ∃ q ∈ p.placed, q.1.Covers q.2 z
    · obtain ⟨q, hq, hcovers⟩ := hcovers
      rw [byteAt_of_covers hpos hq hcovers]
      exact .datum hq hcovers
    · push Not at hcovers
      have hzero : p.byteAt z = some 0 := by
        rw [byteAt, if_pos hnonneg, data]
        rcases Nat.lt_or_ge z.toNat (bytesFrom 0 p.slots).length with hlt' | hge
        · rw [List.getElem?_append_left hlt']
          refine bytesFrom_eq_zero hpos ?_ hlt'
          intro q hq hc
          refine hcovers q hq ?_
          convert hc using 1
          omega
        · have hlen := length_data hpos
          rw [data, List.length_append] at hlen
          rw [List.getElem?_append_right hge, List.getElem?_replicate_of_lt]
          rw [List.length_replicate] at hlen
          omega
      rw [hzero]
      exact .padding hnonneg hlt hcovers
  · have hnone : p.byteAt z = none := by
      rw [byteAt]
      split_ifs with hnonneg
      · rw [List.getElem?_eq_none_iff, length_data hpos]
        omega
      · rfl
    rw [hnone]
    exact .outside (by omega)

/-- Slots with one symbol are one slot, if symbols have one slot each. -/
lemma eq_of_placed {p : Pool} (hnodup : (p.slots.map (·.blob.symbol)).Nodup)
    {q q' : PoolSlot × ℕ} (h : q ∈ p.placed) (h' : q' ∈ p.placed)
    (heq : q.1.blob.symbol = q'.1.blob.symbol) : q = q' := by
  rw [← p.map_fst_zip_offsets, List.map_map] at hnodup
  exact List.inj_on_of_nodup_map hnodup h h' heq

end Pool

end AsmBridge
