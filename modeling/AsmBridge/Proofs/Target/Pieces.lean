import AsmBridge.Target.Listing
import Mathlib.Data.List.Basic
import Mathlib.Data.Nat.Basic
import Mathlib.Tactic.Common

/-!
# Pieces of a row of bytes

A row of bytes is cut into pieces whose widths are those of literals. A piece shows the bytes at its
offset (`exists_offset_of_mem_pieces`), it is as wide as fits there (`fits_of_mem_pieces`), and
every position of the row lies in one piece (`countP_pieces`).
-/

namespace AsmBridge

/-- The greatest width that fits is one of a literal, and fits unless it is a byte. -/
lemma mem_of_widest (fits : ℕ → Bool) :
    ∃ name, (widest fits, name) ∈ literalWidths ∧ (fits (widest fits) = true ∨ widest fits = 1) := by
  unfold widest
  cases h : (literalWidths.map (·.1)).find? fits with
  | none => exact ⟨"BYTE", by decide, .inr rfl⟩
  | some width =>
    obtain ⟨p, hp, rfl⟩ := List.mem_map.mp (List.mem_of_find?_eq_some h)
    exact ⟨p.2, hp, .inl (List.find?_some h)⟩

section Pieces

variable {fits : ℕ → ℕ → ℕ → Bool} {offset : ℕ} {data : List UInt8} {p : ℕ × List UInt8}

/-- What holds of every first piece holds of all pieces. -/
lemma forall_mem_pieces (P : ℕ × List UInt8 → Prop)
    (hfirst : ∀ offset (data : List UInt8), data ≠ [] →
      P (offset, data.take (widest (fits offset (bytesLeft data)))))
    (hp : p ∈ pieces fits offset data) : P p := by
  induction offset, data using pieces.induct fits with
  | case1 offset => simp at hp
  | case2 offset b rest width ih =>
    rw [pieces, List.mem_cons] at hp
    rcases hp with rfl | hp
    · exact hfirst offset (b :: rest) (List.cons_ne_nil b rest)
    · exact ih hp

/-- The rest of a row behind its first piece. -/
lemma drop_widest (b : UInt8) (rest : List UInt8) (width : ℕ → Bool) :
    rest.drop (widest width - 1) = (b :: rest).drop (widest width) := by
  obtain ⟨n, hn⟩ := Nat.exists_eq_succ_of_ne_zero (Nat.ne_of_gt (widest_pos width))
  rw [hn, Nat.succ_sub_one, List.drop_succ_cons]

/-- A piece shows the bytes at its offset. -/
lemma exists_offset_of_mem_pieces (hp : p ∈ pieces fits offset data) :
    ∃ k, p.1 = offset + k ∧ (data.drop k).take p.2.length = p.2 := by
  induction offset, data using pieces.induct fits with
  | case1 offset => simp at hp
  | case2 offset b rest width ih =>
    rw [pieces, List.mem_cons] at hp
    rcases hp with rfl | hp
    · exact ⟨0, rfl, by rw [List.drop_zero, List.length_take, ← List.take_eq_take_min]⟩
    · obtain ⟨k, hoffset, hbytes⟩ := ih hp
      refine ⟨width + k, by omega, ?_⟩
      rwa [drop_widest, List.drop_drop] at hbytes

section Fitting

variable (hfits : ∀ offset left width, fits offset left width = true → width = 1 ∨ width ≤ left)

include hfits

/-- A first piece does not reach behind the end, if what fits does not. -/
lemma length_take_widest (hne : data ≠ []) :
    (data.take (widest (fits offset (bytesLeft data)))).length =
      widest (fits offset (bytesLeft data)) := by
  obtain ⟨-, -, hwidth⟩ := mem_of_widest (fits offset (bytesLeft data))
  have hpos : 0 < data.length := List.length_pos_iff.mpr hne
  have hleft : bytesLeft data ≤ data.length := List.length_take_le' 8 _
  have hle : widest (fits offset (bytesLeft data)) ≤ data.length := by
    rcases hwidth with hwidth | hwidth
    · rcases hfits _ _ _ hwidth with hone | hle
      · omega
      · exact Nat.le_trans hle hleft
    · omega
  rw [List.length_take, Nat.min_eq_left hle]

/-- Pieces that do not reach behind the end are as long as a literal. -/
lemma exists_width_of_mem_pieces (hp : p ∈ pieces fits offset data) :
    ∃ name, (p.2.length, name) ∈ literalWidths := by
  refine forall_mem_pieces (fun p => ∃ name, (p.2.length, name) ∈ literalWidths)
    (fun offset data hne => ?_) hp
  obtain ⟨name, hname, -⟩ := mem_of_widest (fits offset (bytesLeft data))
  refine ⟨name, ?_⟩
  rwa [length_take_widest hfits hne]

/-- A piece is one byte, or fits at its offset. -/
lemma fits_of_mem_pieces (hp : p ∈ pieces fits offset data) :
    p.2.length = 1 ∨ ∃ left, fits p.1 left p.2.length = true := by
  refine forall_mem_pieces (fun p => p.2.length = 1 ∨ ∃ left, fits p.1 left p.2.length = true)
    (fun offset data hne => ?_) hp
  obtain ⟨-, -, hwidth⟩ := mem_of_widest (fits offset (bytesLeft data))
  rw [length_take_widest hfits hne]
  exact hwidth.symm.imp_right fun h => ⟨_, h⟩

/-- Every position of the row lies in one piece. -/
lemma countP_pieces (i : ℕ) :
    (pieces fits offset data).countP (fun p => decide (p.1 ≤ i ∧ i < p.1 + p.2.length)) =
      if offset ≤ i ∧ i < offset + data.length then 1 else 0 := by
  induction offset, data using pieces.induct fits with
  | case1 offset =>
    have hnot : ¬(offset ≤ i ∧ i < offset + ([] : List UInt8).length) := by
      rw [List.length_nil]
      omega
    rw [pieces_nil, List.countP_nil, if_neg hnot]
  | case2 offset b rest width ih =>
    have hwidth : ((b :: rest).take (widest (fits offset (bytesLeft (b :: rest))))).length =
        widest (fits offset (bytesLeft (b :: rest))) :=
      length_take_widest hfits (List.cons_ne_nil b rest)
    have hle : width ≤ (b :: rest).length := by
      change widest _ ≤ _
      rw [← hwidth]
      exact List.length_take_le' _ _
    have hrest : (rest.drop (width - 1)).length = (b :: rest).length - width := by
      rw [drop_widest, List.length_drop]
    rw [pieces, List.countP_cons, ih, hrest, hwidth]
    simp only [decide_eq_true_eq]
    split_ifs <;> omega

end Fitting

end Pieces

end AsmBridge
