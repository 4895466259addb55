import AsmBridge.Proofs.Pool.Alignment
import AsmBridge.Proofs.Pool.Bytes

/-!
# The layout of a pool

Once the layout of a pool is fixed, every slot begins at the least multiple of its alignment behind
the slots before it, and the pool ends at the least multiple of the largest alignment. Its data are
those of the slots, and zeros elsewhere (`Pool.IsLaidOut`). This is so behind every row of requests,
whatever alignments they ask for, and no step changes such a pool any more
(`Pool.isLaidOut_of_requests`).
-/

namespace AsmBridge

namespace Pool

variable {p : Pool} {requests : List Request}

/-! ## Ends of slots -/

/-- Where the last of some slots ends, or the start if there is none. -/
def slotsEnd (start : ℕ) (placed : List (PoolSlot × ℕ)) : ℕ :=
  (placed.getLast?.map fun q => q.2 + q.1.blob.data.length).getD start

/-- The end behind a first slot is measured from its end. -/
lemma slotsEnd_cons (start : ℕ) (q : PoolSlot × ℕ) (placed : List (PoolSlot × ℕ)) :
    slotsEnd start (q :: placed) = slotsEnd (q.2 + q.1.blob.data.length) placed := by
  rw [slotsEnd, slotsEnd, List.getLast?_cons]
  cases placed.getLast? <;> rfl

/-- The layout of slots ends where the last of them does. -/
lemma slotsEnd_zip (start : ℕ) (slots : List PoolSlot) :
    slotsEnd start (slots.zip (offsetsFrom start slots)) = endFrom start slots := by
  induction slots generalizing start with
  | nil => rfl
  | cons s rest ih => rw [offsetsFrom, List.zip_cons_cons, slotsEnd_cons, ih, endFrom]

/-- A slot begins behind the end of those before it, rounded up to its alignment. -/
lemma offset_eq_of_split {slots : List PoolSlot} {start n : ℕ} {s : PoolSlot}
    {before after : List (PoolSlot × ℕ)}
    (h : slots.zip (offsetsFrom start slots) = before ++ (s, n) :: after) :
    n = roundUp (slotsEnd start before) s.align := by
  induction slots generalizing start before with
  | nil => simp at h
  | cons t rest ih =>
    rw [offsetsFrom, List.zip_cons_cons] at h
    rcases List.cons_eq_append_iff.mp h with ⟨rfl, heq⟩ | ⟨before, rfl, hrest⟩
    · obtain ⟨hfirst, -⟩ := List.cons.inj heq
      obtain ⟨rfl, rfl⟩ := Prod.mk.inj hfirst
      rfl
    · rw [slotsEnd_cons]
      exact ih hrest

/-- No slot begins before the start. -/
lemma start_le_of_mem {slots : List PoolSlot} (hpos : ∀ s ∈ slots, 0 < s.align) {start : ℕ}
    {q : PoolSlot × ℕ} (h : q ∈ slots.zip (offsetsFrom start slots)) : start ≤ q.2 := by
  obtain ⟨front, back, -, hlen⟩ := bytesFrom_of_mem hpos h
  omega

/-- A slot ends before the next ones begin. -/
lemma pairwise_placed {slots : List PoolSlot} (hpos : ∀ s ∈ slots, 0 < s.align) (start : ℕ) :
    (slots.zip (offsetsFrom start slots)).Pairwise fun q r =>
      q.2 + q.1.blob.data.length ≤ r.2 := by
  induction slots generalizing start with
  | nil => exact .nil
  | cons s rest ih =>
    have hrest : ∀ t ∈ rest, 0 < t.align := fun t ht => hpos t (List.mem_cons_of_mem _ ht)
    rw [offsetsFrom, List.zip_cons_cons]
    exact .cons (fun r hr => start_le_of_mem hrest hr) (ih hrest _)

/-! ## The layout -/

/-- The alignment of a pool is the largest one of its slots, or one. -/
lemma isGreatest_align (p : Pool) :
    IsGreatest {a | a = 1 ∨ ∃ s ∈ p.slots, a = s.align} p.align := by
  have hfold : ∀ (slots : List PoolSlot) (n : ℕ),
      IsGreatest {a | a = n ∨ ∃ s ∈ slots, a = s.align}
        (slots.foldl (fun n s => max n s.align) n) := by
    intro slots
    induction slots with
    | nil => simp
    | cons s rest ih =>
      intro n
      obtain ⟨hmem, hle⟩ := ih (max n s.align)
      have hmax : max n s.align ≤ rest.foldl (fun n s => max n s.align) (max n s.align) :=
        hle (.inl rfl)
      constructor
      · rcases hmem with heq | ⟨t, ht, heq⟩
        · rw [List.foldl_cons, heq]
          rcases max_choice n s.align with hn | hs
          · exact .inl hn
          · exact .inr ⟨s, List.mem_cons_self, hs⟩
        · exact .inr ⟨t, List.mem_cons_of_mem _ ht, heq⟩
      · rintro a (rfl | ⟨t, ht, rfl⟩)
        · exact (le_max_left _ _).trans hmax
        · rcases List.mem_cons.mp ht with rfl | ht
          · exact (le_max_right _ _).trans hmax
          · exact hle (.inr ⟨t, ht, rfl⟩)
  exact hfold p.slots 1

/-- The layout of a pool. Offsets and alignments are what the pool tells of its symbols. -/
structure IsLaidOut (p : Pool) : Prop where
  slots : p.placed.map Prod.fst = p.slots
  answers : ∀ q ∈ p.placed, p.offset? (some q.1.blob.symbol) = some q.2 ∧
    p.alignment? q.1.blob.symbol = some q.1.align
  /-- Each slot begins as soon as it may. -/
  offset : ∀ before s n after, p.placed = before ++ (s, n) :: after →
    IsLeast {m | s.align ∣ m ∧ slotsEnd 0 before ≤ m} n
  /-- Each slot ends before the next ones begin. -/
  apart : p.placed.Pairwise fun q r => q.2 + q.1.blob.data.length ≤ r.2
  align : IsGreatest {a | a = 1 ∨ ∃ s ∈ p.slots, a = s.align} p.align
  /-- The pool ends as soon as it may. -/
  size : IsLeast {m | p.align ∣ m ∧ slotsEnd 0 p.placed ≤ m} p.size
  length : p.data.length = p.size
  data : ∀ q ∈ p.placed, (p.data.drop q.2).take q.1.blob.data.length = q.1.blob.data
  zero : ∀ i < p.size, (∀ q ∈ p.placed, ¬q.1.Covers q.2 i) → p.data[i]? = some 0

/-- The first slot with a symbol is the only one, if symbols have one slot each. -/
lemma find?_placed (hnodup : (p.slots.map (·.blob.symbol)).Nodup) {q : PoolSlot × ℕ}
    (h : q ∈ p.placed) : p.placed.find? (fun r => r.1.blob.symbol == q.1.blob.symbol) = some q := by
  have hsome : (p.placed.find? fun r => r.1.blob.symbol == q.1.blob.symbol).isSome := by
    rw [List.find?_isSome]
    exact ⟨q, h, BEq.rfl⟩
  obtain ⟨r, hr⟩ := Option.isSome_iff_exists.mp hsome
  have hsymbol : r.1.blob.symbol = q.1.blob.symbol := by simpa using List.find?_some hr
  rw [hr, eq_of_placed hnodup (List.mem_of_find?_eq_some hr) h hsymbol]

/-- A pool tells the offset and the alignment of every slot. -/
lemma answers_of_placed (hnodup : (p.slots.map (·.blob.symbol)).Nodup) {q : PoolSlot × ℕ}
    (h : q ∈ p.placed) : p.offset? (some q.1.blob.symbol) = some q.2 ∧
      p.alignment? q.1.blob.symbol = some q.1.align := by
  have hfind := find?_placed hnodup h
  constructor
  · have hoffset : p.offset? (some q.1.blob.symbol) =
        (p.placed.find? fun r => r.1.blob.symbol == q.1.blob.symbol).map (·.2) := by
      simp [offset?, placed]
    rw [hoffset, hfind]
    rfl
  · rw [alignment?, ← p.map_fst_zip_offsets, List.find?_map]
    change ((p.placed.find? fun r => r.1.blob.symbol == q.1.blob.symbol).map Prod.fst).map _ = _
    rw [hfind]
    rfl

/-- A position in the contents that no slot covers holds a zero. -/
lemma data_eq_zero (hpos : ∀ s ∈ p.slots, 0 < s.align) {i : ℕ} (hi : i < p.size)
    (h : ∀ q ∈ p.placed, ¬q.1.Covers q.2 i) : p.data[i]? = some 0 := by
  have hcontent := content_byteAt hpos (i : ℤ)
  have hbyte : p.byteAt i = p.data[i]? := by simp [byteAt]
  rw [hbyte] at hcontent
  generalize p.data[i]? = byte at hcontent ⊢
  cases hcontent with
  | datum hmem hcovers => exact absurd hcovers (h _ hmem)
  | padding hnonneg hlt hnone => rfl
  | outside hout => omega

/-- The layout of slots with one symbol and some alignment each. -/
lemma isLaidOut (hnodup : (p.slots.map (·.blob.symbol)).Nodup)
    (hpos : ∀ s ∈ p.slots, 0 < s.align) : p.IsLaidOut where
  slots := p.map_fst_zip_offsets
  answers _ := answers_of_placed hnodup
  offset := by
    intro before s n after h
    have hmem : (s, n) ∈ p.placed := by
      rw [h]
      exact List.mem_append_right _ List.mem_cons_self
    have halign : 0 < s.align := hpos s (List.of_mem_zip hmem).1
    rw [offset_eq_of_split h]
    exact isLeast_roundUp halign
  apart := pairwise_placed hpos 0
  align := p.isGreatest_align
  size := by
    have hone : 1 ≤ p.align := p.isGreatest_align.2 (.inl rfl)
    have hend : slotsEnd 0 p.placed = endFrom 0 p.slots := slotsEnd_zip 0 p.slots
    rw [hend]
    exact isLeast_roundUp hone
  length := length_data hpos
  data _ := data_of_mem hpos
  zero _ := data_eq_zero hpos

/-! ## Steps -/

/-- Something that is done with a pool. -/
inductive Step
  | request (r : Request)
  | question (q : PoolQuestion)
  | layout

/-- The pool behind a step. A request that fails leaves the pool as it is. -/
def after (p : Pool) : Step → Pool
  | .request r => (p.require r.1 r.2).toOption.getD p
  | .question q => p.asked q
  | .layout => p.fix

/-- A pool with a fixed layout refuses requests. -/
lemma require_of_isFixed (h : p.isFixed = true) (r : Request) :
    p.require r.1 r.2 = .error .poolFixed := by
  rw [require, h]
  rfl

/-- A step changes nothing once the layout is fixed. -/
lemma after_of_isFixed (h : p.isFixed = true) (step : Step) : p.after step = p := by
  have hfix : p.fix = p := by
    rw [fix, ← h]
  cases step with
  | request r =>
    rw [after, require_of_isFixed h]
    rfl
  | question q =>
    rw [after, asked]
    split_ifs
    · exact hfix
    · rfl
  | layout => exact hfix

/-- No steps change anything once the layout is fixed. -/
lemma foldl_after_of_isFixed (h : p.isFixed = true) (steps : List Step) :
    steps.foldl after p = p := by
  induction steps with
  | nil => rfl
  | cons step rest ih => rw [List.foldl_cons, after_of_isFixed h, ih]

/-- The slots alone tell which requests a pool is filled by. -/
lemma IsFilledBy.fix (h : p.IsFilledBy requests) : p.fix.IsFilledBy requests :=
  ⟨h.symbols, h.nodup, h.blob, h.align⟩

/-- A step keeps the name of a pool and leaves it filled by requests: those before, and the one that
the step makes if it is accepted. -/
lemma IsFilledBy.after (h : p.IsFilledBy requests) (step : Step) :
    (p.after step).name = p.name ∧ ∃ more, (p.after step).IsFilledBy (requests ++ more) := by
  have hkept : p.IsFilledBy (requests ++ []) := by
    rw [List.append_nil]
    exact h
  cases step with
  | request r =>
    rw [Pool.after, require]
    split_ifs
    · exact ⟨rfl, [], hkept⟩
    · exact ⟨rfl, [r], h.withUse r.1 r.2⟩
  | question q =>
    rw [Pool.after, asked]
    split_ifs
    · exact ⟨rfl, [], hkept.fix⟩
    · exact ⟨rfl, [], hkept⟩
  | layout => exact ⟨rfl, [], hkept.fix⟩

/-- Whatever is done with a pool that starts empty, it keeps its name and is filled by requests. -/
lemma exists_isFilledBy (name : String) (steps : List Step) :
    (steps.foldl after { name := name }).name = name ∧
      ∃ requests, (steps.foldl after { name := name }).IsFilledBy requests := by
  have hrun : ∀ (steps : List Step) {p : Pool} {requests : List Request},
      p.IsFilledBy requests → (steps.foldl after p).name = p.name ∧
        ∃ more, (steps.foldl after p).IsFilledBy more := by
    intro steps
    induction steps with
    | nil => exact fun h => ⟨rfl, _, h⟩
    | cons step rest ih =>
      intro p requests h
      obtain ⟨hname, more, hfirst⟩ := h.after step
      obtain ⟨hrest, hfilled⟩ := ih hfirst
      exact ⟨hrest.trans hname, hfilled⟩
  exact hrun steps (isFilledBy_withRequests name [])

/-- Every row of requests is accepted, as long as the layout is open. When it is then fixed, the
slots stand for the requests in the order of their first ones, with the alignments that they ask
for, each as near to the start as may be. Requests fail from then on, and nothing changes. -/
theorem isLaidOut_of_requests (name : String) (requests : List Request) :
    ∃ p : Pool, (Pool.requireEach { name := name } requests).map fix = .ok p ∧
      p.name = name ∧ p.IsFilledBy requests ∧ p.IsLaidOut ∧
      p.contents = (roomFor p.size).map (fun _ => p.data) ∧
      (∀ r : Request, p.require r.1 r.2 = .error .poolFixed) ∧
      ∀ steps : List Step, steps.foldl after p = p := by
  have hfilled := isFilledBy_withRequests name requests
  have hname : (Pool.withRequests { name := name } requests).name = name :=
    name_withRequests _ requests
  refine ⟨(Pool.withRequests { name := name } requests).fix, ?_, hname, ?_, ?_, rfl,
    require_of_isFixed rfl, foldl_after_of_isFixed rfl⟩
  · rw [requireEach_eq requests rfl]
    rfl
  · exact hfilled.fix
  · exact isLaidOut hfilled.nodup hfilled.align_pos

/-- The second request of the first symbol moves nothing, but lengthens the tail. -/
example : (Pool.requireEach {} [({ symbol := "a", data := [1] }, 1),
    ({ symbol := "b", data := [2, 3], align := 3 }, 1), ({ symbol := "a" }, 4)]).map
      (fun p => (p.offsets, p.align, p.data)) = .ok ([0, 3], 4, [1, 0, 0, 2, 3, 0, 0, 0]) := by
  decide

end Pool

end AsmBridge
