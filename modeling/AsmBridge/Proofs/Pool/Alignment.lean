import AsmBridge.Proofs.Pool.Filling

/-!
# Alignment of the slots of a pool

A pool grows by uses of blobs. In a pool made of a row of uses every symbol has one slot, and the
alignment of the slot is the greatest of what the uses of the symbol ask for: the alignments of
their blobs and the widths of their accesses up to the widest one (`Pool.isAlignedFor_withUses`).
The offset of a slot is the end of the slots before it rounded up to this alignment
(`Pool.IsAlignedFor.offset`), hence a multiple of it and of its divisors.
-/

namespace AsmBridge

/-! ## Rounding up -/

/-- Rounding up gives a multiple. -/
lemma dvd_roundUp (n unit : ℕ) : unit ∣ roundUp n unit := Dvd.intro_left _ rfl

/-- Rounding up gives the least multiple that is not below the number. -/
lemma isLeast_roundUp {n unit : ℕ} (h : 0 < unit) :
    IsLeast {m | unit ∣ m ∧ n ≤ m} (roundUp n unit) := by
  refine ⟨⟨dvd_roundUp n unit, le_roundUp h⟩, ?_⟩
  rintro m ⟨⟨k, rfl⟩, hle⟩
  have hlt : n + unit - 1 < unit * (k + 1) := by
    rw [Nat.mul_add_one]
    omega
  have hquotient : (n + unit - 1) / unit ≤ k :=
    Nat.le_of_lt_succ (Nat.div_lt_of_lt_mul hlt)
  calc roundUp n unit = unit * ((n + unit - 1) / unit) := Nat.mul_comm _ _
    _ ≤ unit * k := Nat.mul_le_mul_left unit hquotient

/-- Of two powers of two the smaller one divides the larger one. -/
lemma dvd_of_twoPow_le {m n : ℕ} (hm : ∃ k, m = 2 ^ k) (hn : ∃ k, n = 2 ^ k) (h : m ≤ n) :
    m ∣ n := by
  obtain ⟨j, rfl⟩ := hm
  obtain ⟨k, rfl⟩ := hn
  exact Nat.pow_dvd_pow 2 ((Nat.pow_le_pow_iff_right one_lt_two).mp h)

namespace Pool

/-! ## Offsets of slots -/

/-- The offset of a slot is the end of the slots before it, rounded up to its alignment. -/
lemma exists_end_of_mem {slots : List PoolSlot} {start n : ℕ} {s : PoolSlot}
    (h : (s, n) ∈ slots.zip (offsetsFrom start slots)) :
    ∃ before after, slots = before ++ s :: after ∧ n = roundUp (endFrom start before) s.align := by
  induction slots generalizing start with
  | nil => cases h
  | cons t rest ih =>
    rw [offsetsFrom, List.zip_cons_cons] at h
    rcases List.mem_cons.mp h with heq | h
    · obtain ⟨rfl, rfl⟩ := Prod.mk.inj heq
      exact ⟨[], rest, rfl, rfl⟩
    · obtain ⟨before, after, rfl, hn⟩ := ih h
      exact ⟨t :: before, after, rfl, hn⟩

/-- The offset of a symbol is that of a slot. -/
lemma exists_slot_of_offset {p : Pool} {symbol : String} {n : ℕ}
    (h : p.offset? (some symbol) = some n) :
    ∃ s, (s, n) ∈ p.slots.zip p.offsets ∧ s.blob.symbol = symbol := by
  obtain ⟨⟨s, m⟩, hfind, rfl⟩ := Option.map_eq_some_iff.mp h
  have hsymbol := List.find?_some hfind
  exact ⟨s, List.mem_of_find?_eq_some hfind, by simpa using hsymbol⟩

/-! ## Uses -/

/-- A use of data: a blob and the width in bytes of an access to it. -/
abbrev Use := Blob × ℕ

/-- The pool behind a row of uses. -/
def withUses (p : Pool) (uses : List Use) : Pool :=
  uses.foldl (fun p u => p.withUse u.1 u.2) p

lemma withUses_append (p : Pool) (uses more : List Use) :
    p.withUses (uses ++ more) = (p.withUses uses).withUses more := List.foldl_append

/-- What the uses of a symbol ask of the alignment of its slot: the alignments of their blobs, and
the widths of their accesses as far as they count. -/
def demands (uses : List Use) (symbol : String) : Set ℤ :=
  {d | ∃ u ∈ uses, u.1.symbol = symbol ∧ (d = u.1.align ∨ d = min (u.2 : ℤ) widestAccess)}

/-- Every slot stands for uses of its symbol and has the greatest alignment that they ask for. -/
structure IsAlignedFor (p : Pool) (uses : List Use) : Prop where
  nodup : (p.slots.map (·.blob.symbol)).Nodup
  greatest : ∀ s ∈ p.slots, IsGreatest (demands uses s.blob.symbol) s.align
  /-- Every use has a slot. -/
  covers : ∀ u ∈ uses, u.1.symbol ∈ p.slots.map (·.blob.symbol)

/-- The requests that uses stand for. -/
def requestsOf (uses : List Use) : List Request := uses.map fun u => (u.1, (u.2 : ℤ))

lemma withRequests_requestsOf (p : Pool) (uses : List Use) :
    p.withRequests (requestsOf uses) = p.withUses uses := by
  rw [withRequests, requestsOf, List.foldl_map]
  rfl

/-- What uses ask for is what their requests ask for, but for the least alignment. -/
lemma askedOf_requestsOf (uses : List Use) (symbol : String) :
    askedOf (requestsOf uses) symbol = insert 1 (demands uses symbol) := by
  ext d
  simp [askedOf, requestsOf, demands]

/-- The alignment of a slot is asked for by a use, as every access has a width. -/
lemma isGreatest_demands {uses : List Use} (h : ∀ u ∈ uses, 0 < u.2) {u : Use} (hu : u ∈ uses)
    {n : ℤ} (hn : IsGreatest (askedOf (requestsOf uses) u.1.symbol) n) :
    IsGreatest (demands uses u.1.symbol) n := by
  rw [askedOf_requestsOf] at hn
  have hwidth : min (u.2 : ℤ) widestAccess ∈ demands uses u.1.symbol := ⟨u, hu, rfl, .inr rfl⟩
  have hone : (1 : ℤ) ≤ min (u.2 : ℤ) widestAccess := by
    have hpos := h u hu
    rw [widestAccess]
    omega
  have hle : min (u.2 : ℤ) widestAccess ≤ n := hn.2 (.inr hwidth)
  refine ⟨?_, fun d hd => hn.2 (.inr hd)⟩
  rcases hn.1 with rfl | hmem
  · rwa [le_antisymm hle hone] at hwidth
  · exact hmem

/-- A pool that starts empty is aligned for its uses. -/
lemma isAlignedFor_withUses (name : String) {uses : List Use} (h : ∀ u ∈ uses, 0 < u.2) :
    (Pool.withUses { name := name } uses).IsAlignedFor uses := by
  have hfilled := isFilledBy_withRequests name (requestsOf uses)
  rw [withRequests_requestsOf] at hfilled
  have hsymbols : (requestsOf uses).map (·.1.symbol) = uses.map (·.1.symbol) := by
    rw [requestsOf, List.map_map]
    rfl
  refine ⟨hfilled.nodup, fun s hs => ?_, fun u hu => ?_⟩
  · have hmem : s.blob.symbol ∈ uses.map (·.1.symbol) :=
      hsymbols ▸ hfilled.mem_symbols.mp (List.mem_map.mpr ⟨s, hs, rfl⟩)
    obtain ⟨u, hu, heq⟩ := List.mem_map.mp hmem
    have hgreatest := hfilled.align s hs
    rw [← heq] at hgreatest ⊢
    exact isGreatest_demands h hu hgreatest
  · rw [hfilled.mem_symbols, hsymbols]
    exact List.mem_map.mpr ⟨u, hu, rfl⟩

/-- The slot of a symbol begins where those before it end, or at the next multiple of its alignment,
the greatest one that uses of the symbol ask for. -/
lemma IsAlignedFor.offset {p : Pool} {uses : List Use} (h : p.IsAlignedFor uses) {symbol : String}
    {n : ℕ} (hn : p.offset? (some symbol) = some n) :
    ∃ before s after, p.slots = before ++ s :: after ∧ n = roundUp (endFrom 0 before) s.align ∧
      IsGreatest (demands uses symbol) s.align := by
  obtain ⟨s, hs, rfl⟩ := exists_slot_of_offset hn
  obtain ⟨before, after, hslots, hend⟩ := exists_end_of_mem hs
  exact ⟨before, s, after, hslots, hend, h.greatest s (List.of_mem_zip hs).1⟩

end Pool

end AsmBridge
