import AsmBridge.Proofs.Pool.Layout
import Mathlib.Data.Int.Order.Basic
import Mathlib.Data.List.Nodup
import Mathlib.Data.Nat.Cast.Order.Ring
import Mathlib.Order.Bounds.Basic

/-!
# Filling a pool

A pool is filled by requests, each for a blob and an access to it. Behind a row of them the slots
are the symbols in the order of their first requests, and the alignment of a slot is the greatest
number that the requests of its symbol ask for, also those behind the requests of later symbols
(`Pool.isFilledBy_withRequests`). The blob in a slot is that of the first request.
-/

namespace AsmBridge

namespace Pool

/-! ## One request -/

/-- A slot behind a use of a blob, if symbols have one slot each: the slot of another symbol, the
slot of this one with an alignment that is raised to what the use asks for, or a new one. -/
lemma mem_noteUse_of_nodup {b : Blob} {align : ℕ} {slots : List PoolSlot} {s : PoolSlot}
    (hnodup : (slots.map (·.blob.symbol)).Nodup) (h : s ∈ noteUse b align slots) :
    (s ∈ slots ∧ s.blob.symbol ≠ b.symbol) ∨
      (∃ t ∈ slots, t.blob.symbol = b.symbol ∧ s = { t with align := max t.align align }) ∨
      ((∀ t ∈ slots, t.blob.symbol ≠ b.symbol) ∧ s = ⟨b, align⟩) := by
  induction slots with
  | nil =>
    have hnew : s = ⟨b, align⟩ := List.mem_singleton.mp h
    exact .inr (.inr ⟨List.forall_mem_nil _, hnew⟩)
  | cons t rest ih =>
    obtain ⟨hfirst, hrest⟩ := List.nodup_cons.mp hnodup
    rw [noteUse] at h
    split at h
    · rename_i heq
      rw [beq_iff_eq] at heq
      rcases List.mem_cons.mp h with rfl | h
      · exact .inr (.inl ⟨t, List.mem_cons_self, heq, rfl⟩)
      · refine .inl ⟨List.mem_cons_of_mem _ h, fun hs => hfirst ?_⟩
        exact List.mem_map.mpr ⟨s, h, hs.trans heq.symm⟩
    · rename_i hne
      rw [beq_iff_eq] at hne
      rcases List.mem_cons.mp h with rfl | h
      · exact .inl ⟨List.mem_cons_self, hne⟩
      · rcases ih hrest h with ⟨hmem, hs⟩ | ⟨u, hu, hs, heq⟩ | ⟨hnone, heq⟩
        · exact .inl ⟨List.mem_cons_of_mem _ hmem, hs⟩
        · exact .inr (.inl ⟨u, List.mem_cons_of_mem _ hu, hs, heq⟩)
        · exact .inr (.inr ⟨List.forall_mem_cons.mpr ⟨hne, hnone⟩, heq⟩)

/-- The symbols of the slots behind a use. -/
lemma symbols_noteUse (b : Blob) (align : ℕ) (slots : List PoolSlot) :
    (noteUse b align slots).map (·.blob.symbol) =
      if b.symbol ∈ slots.map (·.blob.symbol) then slots.map (·.blob.symbol)
      else slots.map (·.blob.symbol) ++ [b.symbol] := by
  induction slots with
  | nil => rfl
  | cons t rest ih =>
    rw [noteUse]
    by_cases heq : t.blob.symbol = b.symbol
    · simp [heq]
    · have hne : ¬b.symbol = t.blob.symbol := fun h => heq h.symm
      rw [if_neg (by simpa using heq), List.map_cons, List.map_cons, ih]
      by_cases hmem : b.symbol ∈ rest.map (·.blob.symbol)
      · rw [if_pos hmem, if_pos (List.mem_cons_of_mem _ hmem)]
      · rw [if_neg hmem, if_neg (List.not_mem_cons_of_ne_of_not_mem hne hmem)]
        rfl

/-- Symbols keep one slot each. -/
lemma nodup_noteUse {b : Blob} {align : ℕ} {slots : List PoolSlot}
    (h : (slots.map (·.blob.symbol)).Nodup) :
    ((noteUse b align slots).map (·.blob.symbol)).Nodup := by
  rw [symbols_noteUse]
  split_ifs with hmem
  · exact h
  · exact List.Nodup.append h (List.nodup_singleton _) (by simpa using hmem)

/-! ## A row of requests -/

/-- A request: a blob and the width in bytes of an access to it, which may be any number. -/
abbrev Request := Blob × ℤ

/-- The pool behind a row of requests, if it accepts all of them. -/
def requireEach (p : Pool) (requests : List Request) : Except Stop Pool :=
  requests.foldlM (fun p r => p.require r.1 r.2) p

/-- The pool with the uses noted that a row of requests asks for. -/
def withRequests (p : Pool) (requests : List Request) : Pool :=
  requests.foldl (fun p r => p.withUse r.1 r.2) p

/-- The alignments that the requests of a symbol ask for, and the least one that a slot can have. -/
def askedOf (requests : List Request) (symbol : String) : Set ℤ :=
  {d | d = 1 ∨ ∃ r ∈ requests, r.1.symbol = symbol ∧ (d = r.1.align ∨ d = min r.2 widestAccess)}

/-- The blob of the first request of a symbol. -/
def blobOf? (requests : List Request) (symbol : String) : Option Blob :=
  (requests.find? fun r => r.1.symbol == symbol).map (·.1)

/-- The slots of the pool stand for the requests. -/
structure IsFilledBy (p : Pool) (requests : List Request) : Prop where
  /-- The slots are in the order of the first requests of their symbols. -/
  symbols : p.slots.map (·.blob.symbol) = (requests.map (·.1.symbol)).eraseDups
  nodup : (p.slots.map (·.blob.symbol)).Nodup
  blob : ∀ s ∈ p.slots, blobOf? requests s.blob.symbol = some s.blob
  align : ∀ s ∈ p.slots, IsGreatest (askedOf requests s.blob.symbol) s.align

variable {p : Pool} {requests : List Request} {b : Blob} {access : ℤ}

/-- A symbol has a slot if it was requested. -/
lemma IsFilledBy.mem_symbols (h : p.IsFilledBy requests) {symbol : String} :
    symbol ∈ p.slots.map (·.blob.symbol) ↔ symbol ∈ requests.map (·.1.symbol) := by
  rw [h.symbols, List.mem_eraseDups]

/-- A request of another symbol asks nothing of a symbol. -/
lemma askedOf_append_of_ne {symbol : String} (h : b.symbol ≠ symbol) :
    askedOf (requests ++ [(b, access)]) symbol = askedOf requests symbol := by
  ext d
  simp [askedOf, List.mem_append, or_and_right, exists_or, h]

/-- A request asks for the alignment of its blob and for the width of its access, as far as this
counts. -/
lemma askedOf_append_self :
    askedOf (requests ++ [(b, access)]) b.symbol =
      askedOf requests b.symbol ∪ {b.align, min access widestAccess} := by
  ext d
  simp only [askedOf, Set.mem_union, Set.mem_insert_iff, Set.mem_singleton_iff, Set.mem_ofPred_eq,
    List.mem_append, List.mem_singleton, or_and_right, exists_or, exists_eq_left, true_and]
  exact or_assoc.symm

/-- Nothing is asked of a symbol without requests. -/
lemma askedOf_of_notMem {symbol : String} (h : symbol ∉ requests.map (·.1.symbol)) :
    askedOf requests symbol = {1} := by
  have hnone : ∀ r ∈ requests, r.1.symbol ≠ symbol := fun r hr heq =>
    h (List.mem_map.mpr ⟨r, hr, heq⟩)
  ext d
  constructor
  · rintro (hone | ⟨r, hr, hsymbol, -⟩)
    · exact hone
    · exact absurd hsymbol (hnone r hr)
  · exact Or.inl

/-- A request raises the greatest number that is asked for. -/
lemma isGreatest_askedOf_append {n : ℕ} (h : IsGreatest (askedOf requests b.symbol) (n : ℤ)) :
    IsGreatest (askedOf (requests ++ [(b, access)]) b.symbol)
      ((max n (wanted b access) : ℕ) : ℤ) := by
  have hone : (1 : ℤ) ≤ n := h.2 (.inl rfl)
  have hmax : ((max n (wanted b access) : ℕ) : ℤ) =
      max (n : ℤ) (max b.align (min access widestAccess)) := by
    rw [wanted, widestAccess]
    omega
  rw [hmax, askedOf_append_self]
  exact h.union isGreatest_pair

/-- The blob of the first request stays when there is one request more. -/
lemma blobOf?_append_of_some {symbol : String} (h : blobOf? requests symbol = some b)
    (more : List Request) : blobOf? (requests ++ more) symbol = some b := by
  obtain ⟨r, hr, rfl⟩ := Option.map_eq_some_iff.mp h
  rw [blobOf?, List.find?_append, hr]
  rfl

/-- The first request of a symbol decides on its blob. -/
lemma blobOf?_append_of_notMem (h : b.symbol ∉ requests.map (·.1.symbol)) :
    blobOf? (requests ++ [(b, access)]) b.symbol = some b := by
  have hnone : requests.find? (fun r => r.1.symbol == b.symbol) = none := by
    refine List.find?_eq_none.mpr fun r hr heq => h ?_
    exact List.mem_map.mpr ⟨r, hr, beq_iff_eq.mp heq⟩
  rw [blobOf?, List.find?_append, hnone, List.find?_singleton, if_pos (BEq.rfl)]
  rfl

/-- One request more. -/
lemma IsFilledBy.withUse (h : p.IsFilledBy requests) (b : Blob) (access : ℤ) :
    (p.withUse b access).IsFilledBy (requests ++ [(b, access)]) where
  symbols := by
    have hslots : (p.withUse b access).slots = noteUse b (wanted b access) p.slots := rfl
    rw [hslots, symbols_noteUse, List.map_append, List.eraseDups_append, h.symbols]
    by_cases hmem : b.symbol ∈ requests.map (·.1.symbol)
    · have hold : [b.symbol].removeAll (requests.map (·.1.symbol)) = [] := by
        simpa [List.removeAll] using hmem
      rw [if_pos (List.mem_eraseDups.mpr hmem), List.map_singleton, hold, List.eraseDups_nil,
        List.append_nil]
    · have hnew : [b.symbol].removeAll (requests.map (·.1.symbol)) = [b.symbol] := by
        simpa [List.removeAll] using hmem
      rw [if_neg (mt List.mem_eraseDups.mp hmem), List.map_singleton, hnew]
      rfl
  nodup := nodup_noteUse h.nodup
  blob := by
    intro s hs
    rcases mem_noteUse_of_nodup h.nodup hs with ⟨hmem, -⟩ | ⟨t, ht, -, rfl⟩ | ⟨hnone, rfl⟩
    · exact blobOf?_append_of_some (h.blob s hmem) _
    · exact blobOf?_append_of_some (h.blob t ht) _
    · refine blobOf?_append_of_notMem fun hmem => ?_
      obtain ⟨t, ht, heq⟩ := List.mem_map.mp (h.mem_symbols.mpr hmem)
      exact hnone t ht heq
  align := by
    intro s hs
    rcases mem_noteUse_of_nodup h.nodup hs with ⟨hmem, hne⟩ | ⟨t, ht, heq, rfl⟩ | ⟨hnone, rfl⟩
    · rw [askedOf_append_of_ne hne.symm]
      exact h.align s hmem
    · have hgreatest : IsGreatest (askedOf requests t.blob.symbol) t.align := h.align t ht
      change IsGreatest (askedOf _ t.blob.symbol) _
      rw [heq] at hgreatest ⊢
      exact isGreatest_askedOf_append hgreatest
    · -- A new slot is one of the least alignment that the request has raised.
      have hasked : askedOf requests b.symbol = {1} := by
        refine askedOf_of_notMem fun hmem => ?_
        obtain ⟨t, ht, heq⟩ := List.mem_map.mp (h.mem_symbols.mpr hmem)
        exact hnone t ht heq
      have hleast : IsGreatest (askedOf requests b.symbol) ((1 : ℕ) : ℤ) :=
        hasked ▸ isGreatest_singleton
      have hraised : IsGreatest (askedOf (requests ++ [(b, access)]) b.symbol)
          ((max 1 (wanted b access) : ℕ) : ℤ) := isGreatest_askedOf_append hleast
      rwa [Nat.max_eq_right (wanted_pos b access)] at hraised

/-- A row of requests more. -/
lemma IsFilledBy.withRequests (h : p.IsFilledBy requests) (more : List Request) :
    (p.withRequests more).IsFilledBy (requests ++ more) := by
  induction more generalizing p requests with
  | nil =>
    rw [List.append_nil]
    exact h
  | cons r more ih =>
    have hnext := ih (h.withUse r.1 r.2)
    rwa [List.append_assoc] at hnext

/-- Requests leave the name of a pool alone. -/
lemma name_withRequests (p : Pool) (requests : List Request) :
    (p.withRequests requests).name = p.name := by
  induction requests generalizing p with
  | nil => rfl
  | cons r rest ih => exact ih (p.withUse r.1 r.2)

/-- A pool that starts empty is filled by its requests. -/
theorem isFilledBy_withRequests (name : String) (requests : List Request) :
    (Pool.withRequests { name := name } requests).IsFilledBy requests := by
  have hempty : ({ name := name } : Pool).IsFilledBy [] :=
    ⟨rfl, List.nodup_nil, fun s hs => (nomatch hs), fun s hs => (nomatch hs)⟩
  exact hempty.withRequests requests

/-- Every slot has an alignment. -/
lemma IsFilledBy.align_pos (h : p.IsFilledBy requests) : ∀ s ∈ p.slots, 0 < s.align := by
  intro s hs
  have hone : (1 : ℤ) ≤ s.align := (h.align s hs).2 (.inl rfl)
  omega

/-- A pool whose layout is open accepts all requests. -/
lemma requireEach_eq (requests : List Request) (hopen : p.isFixed = false) :
    p.requireEach requests = .ok (p.withRequests requests) := by
  induction requests generalizing p with
  | nil => rfl
  | cons r rest ih =>
    have hfirst : p.require r.1 r.2 = .ok (p.withUse r.1 r.2) := by
      rw [require, hopen]
      rfl
    rw [requireEach, List.foldlM_cons, hfirst]
    exact ih hopen

end Pool

end AsmBridge
