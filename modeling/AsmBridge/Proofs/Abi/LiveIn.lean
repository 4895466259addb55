import AsmBridge.Calls
import AsmBridge.Proofs.Abi.Discovered
import AsmBridge.Proofs.Function.Extraction
import Mathlib.Data.List.Chain

/-!
# Registers that are read before they are written

Along a path of control from the start of a body, a register that is read before the path writes it
holds a value of the caller: it is an argument. Discovery looks for arguments in the order of the
source instead, by the first access to each family of registers (`find?_of_foldlM`). The two orders
differ where a path jumps over an instruction, and only there: discovery misses an argument register
only if the first instruction that touches its family does no more than write it and the path jumps
over this instruction.
-/

namespace AsmBridge

/-! ## Accesses -/

namespace Instruction

/-- The registers that the instruction reads. -/
def reads (i : Instruction) : List Register :=
  match Access.ofInstruction i with
  | .ok a => a.reads
  | .error _ => []

/-- The registers that the instruction writes. -/
def writes (i : Instruction) : List Register :=
  match Access.ofInstruction i with
  | .ok a => a.writes
  | .error _ => []

/-- The instruction reads a register of the family of `r`. -/
def Reads (i : Instruction) (r : Register) : Prop := ∃ q ∈ i.reads, q.family = r.family

/-- The instruction writes a register of the family of `r`. -/
def Writes (i : Instruction) (r : Register) : Prop := ∃ q ∈ i.writes, q.family = r.family

/-- The instruction reads or writes a register of the family of `r`. -/
def Touches (i : Instruction) (r : Register) : Prop := i.Reads r ∨ i.Writes r

instance (i : Instruction) (r : Register) : Decidable (i.Reads r) :=
  inferInstanceAs (Decidable (∃ q ∈ i.reads, q.family = r.family))

instance (i : Instruction) (r : Register) : Decidable (i.Writes r) :=
  inferInstanceAs (Decidable (∃ q ∈ i.writes, q.family = r.family))

end Instruction

namespace FirstAccess

variable {found found' : List FirstAccess}

/-- A noted access is found if its family was not found before. -/
lemma find?_note (found : List FirstAccess) (a : FirstAccess) (r : Register) :
    (note found a).find? (·.family == r.family) =
      (found.find? (·.family == r.family)).or (if a.family = r.family then some a else none) := by
  rw [note]
  split_ifs with hany hfamily hfamily
  · have hsome : (found.find? (·.family == r.family)).isSome = true := by
      rw [List.find?_isSome]
      simpa [hfamily] using hany
    rw [Option.or_of_isSome hsome]
  · rw [Option.or_none]
  · rw [List.find?_append, List.find?_singleton, if_pos (by simpa using hfamily)]
  · rw [List.find?_append, List.find?_singleton, if_neg (by simpa using hfamily)]

/-- Of the accesses to a row of registers the first to a family is found. -/
lemma find?_foldl_note {mk : Register → FirstAccess} (hmk : ∀ q, (mk q).family = q.family)
    (qs : List Register) (found : List FirstAccess) (r : Register) :
    (qs.foldl (fun found q => note found (mk q)) found).find? (·.family == r.family) =
      (found.find? (·.family == r.family)).or
        ((qs.find? (·.family == r.family)).map mk) := by
  induction qs generalizing found with
  | nil => simp
  | cons q qs ih =>
    rw [List.foldl_cons, ih, find?_note, hmk, Option.or_assoc, List.find?_cons]
    by_cases hq : q.family = r.family
    · simp [hq]
    · rw [if_neg hq, Option.none_or, beq_false_of_ne hq]

/-- A register of a family is found in a row if the row has one. -/
lemma isSome_find?_iff {qs : List Register} {r : Register} :
    (qs.find? (·.family == r.family)).isSome ↔ ∃ q ∈ qs, q.family = r.family := by
  simp [List.find?_isSome]

/-- What one instruction adds for a family: an access if it touches the family, a read if it reads
it. -/
lemma exists_of_scan {i : Instruction} (h : scan found i = .ok found') (r : Register) :
    ∃ y : Option FirstAccess,
      found'.find? (·.family == r.family) = (found.find? (·.family == r.family)).or y ∧
        (y.isSome ↔ i.Touches r) ∧ ∀ x ∈ y, x.isRead = true ↔ i.Reads r := by
  obtain ⟨a, ha, h⟩ := bind_eq_ok.mp h
  obtain rfl := pure_eq_ok.mp h
  have hreads : i.Reads r ↔ (a.reads.find? (·.family == r.family)).isSome := by
    rw [isSome_find?_iff, Instruction.Reads, Instruction.reads, ha]
  have hwrites : i.Writes r ↔ (a.writes.find? (·.family == r.family)).isSome := by
    rw [isSome_find?_iff, Instruction.Writes, Instruction.writes, ha]
  refine ⟨((a.reads.find? (·.family == r.family)).map fun q =>
      ⟨q.family, true, q, i, a.narrow.contains q⟩).or
    ((a.writes.find? (·.family == r.family)).map fun q => ⟨q.family, false, q, i, false⟩), ?_, ?_⟩
  · rw [find?_foldl_note fun _ => rfl, find?_foldl_note fun _ => rfl, Option.or_assoc]
  · rw [Instruction.Touches, hreads, hwrites]
    cases a.reads.find? (·.family == r.family) with
    | some q => simp
    | none => cases a.writes.find? (·.family == r.family) <;> simp

/-- What was found of a family stays. -/
lemma find?_of_foldlM_of_some {is : List Instruction} (h : is.foldlM scan found = .ok found')
    {r : Register} {x : FirstAccess} (hx : found.find? (·.family == r.family) = some x) :
    found'.find? (·.family == r.family) = some x := by
  refine foldlM_induction (fun found => found.find? (·.family == r.family) = some x) ?_ h hx
  intro b i b' hstep hb
  obtain ⟨y, hy, -⟩ := exists_of_scan hstep r
  rw [hy, hb, Option.some_or]

/-- A family is found in a row of instructions if one of them touches it. What is found comes from
the first one that does, and is a read if that reads the family. -/
lemma find?_of_foldlM {is : List Instruction} (h : is.foldlM scan found = .ok found')
    {r : Register} (hnone : found.find? (·.family == r.family) = none) :
    (∀ i ∈ is, ¬ i.Touches r) ∨ ∃ front i back x, is = front ++ i :: back ∧
      (∀ j ∈ front, ¬ j.Touches r) ∧ i.Touches r ∧
      found'.find? (·.family == r.family) = some x ∧ (x.isRead = true ↔ i.Reads r) := by
  induction is generalizing found with
  | nil => exact .inl fun i hi => nomatch hi
  | cons i is ih =>
    rw [List.foldlM_cons] at h
    obtain ⟨mid, hscan, h⟩ := bind_eq_ok.mp h
    obtain ⟨y, hy, htouches, hreads⟩ := exists_of_scan hscan r
    rw [hnone, Option.none_or] at hy
    cases y with
    | some x =>
      exact .inr ⟨[], i, is, x, rfl, (fun j hj => nomatch hj), htouches.mp rfl,
        find?_of_foldlM_of_some h hy, hreads x rfl⟩
    | none =>
      have hi : ¬ i.Touches r := fun hi => nomatch htouches.mpr hi
      rcases ih h hy with hrest | ⟨front, j, back, x, rfl, hfront, hj⟩
      · exact .inl (List.forall_mem_cons.mpr ⟨hi, hrest⟩)
      · exact .inr ⟨i :: front, j, back, x, rfl, List.forall_mem_cons.mpr ⟨hi, hfront⟩, hj⟩

end FirstAccess

/-! ## Paths of control -/

/-- Control may run on from the record to the next one. -/
def BodyItem.runsOn : BodyItem → Bool
  | .instruction i => !Draft.isTerminator i
  | .epilogue _ => false
  | _ => true

namespace SourceFunction

/-- The instruction at a position of the body. -/
def instruction? (f : SourceFunction) (n : ℕ) : Option Instruction :=
  f.body[n]?.bind (·.instruction?)

/-- The positions at which a label of the body stands. -/
def positions (f : SourceFunction) (label : String) : List ℕ :=
  (List.range f.body.length).filter fun n => (f.body[n]?.bind (·.label?)).any (·.name == label)

/-- Where a jump leads, if it is to a label of the body. -/
def jumpsTo (f : SourceFunction) (i : Instruction) : List ℕ :=
  if i.isJump then i.target?.toList.flatMap f.positions else []

/-- The positions to which control may go from a position. -/
def successors (f : SourceFunction) (n : ℕ) : List ℕ :=
  (if (f.body[n]?).any (·.runsOn) then [n + 1] else []) ++
    (f.instruction? n).toList.flatMap f.jumpsTo

/-- A path of control from the start of the body to a position: the positions on the way, in
order. -/
structure IsPath (f : SourceFunction) (before : List ℕ) (n : ℕ) : Prop where
  start : (before ++ [n]).head? = some 0
  flow : (before ++ [n]).IsChain fun k m => m ∈ f.successors k

instance (f : SourceFunction) (before : List ℕ) (n : ℕ) : Decidable (f.IsPath before n) :=
  decidable_of_iff
    ((before ++ [n]).head? = some 0 ∧ (before ++ [n]).IsChain fun k m => m ∈ f.successors k)
    ⟨fun h => ⟨h.1, h.2⟩, fun h => ⟨h.start, h.flow⟩⟩

/-- On the way a jump leads from before a position to behind it. -/
def JumpsOver (f : SourceFunction) (way : List ℕ) (m : ℕ) : Prop :=
  ∃ k k' i, [k, k'] <:+: way ∧ k < m ∧ m < k' ∧ f.instruction? k = some i ∧ k' ∈ f.jumpsTo i

/-- The first instruction of the body that touches the family of a register, in the order of the
source, stands at a position and only writes the family. -/
structure FirstWrites (f : SourceFunction) (r : Register) (m : ℕ) : Prop where
  writes : ∃ w ∈ f.instruction? m, w.Writes r ∧ ¬ w.Reads r
  first : ∀ k < m, ∀ j ∈ f.instruction? k, ¬ j.Touches r

/-- The argument registers that an instruction reads: for a call those of the helper that it names,
but no more than three. -/
def argumentReads (f : SourceFunction) (hs : Helpers) (i : Instruction) : List Register :=
  if i.isCall then
    match hs.resolve f i with
    | .ok site => Register.integerArguments.take (min site.helper.args.toNat 3)
    | .error _ => []
  else i.reads

variable {f : SourceFunction}

/-- An instruction at a position is one of the body. -/
lemma mem_instructions {n : ℕ} {i : Instruction} (h : f.instruction? n = some i) :
    i ∈ f.instructions := by
  obtain ⟨b, hb, hi⟩ := Option.bind_eq_some_iff.mp h
  exact List.mem_filterMap.mpr ⟨b, List.mem_of_getElem? hb, hi⟩

/-- An instruction of the body stands at a position, and those in front of it at earlier ones. -/
lemma exists_position {front back : List Instruction} {i : Instruction}
    (h : f.instructions = front ++ i :: back) :
    ∃ m, f.instruction? m = some i ∧ ∀ k < m, ∀ j ∈ f.instruction? k, j ∈ front := by
  obtain ⟨items, rest, hbody, rfl, hrest⟩ := List.filterMap_eq_append_iff.mp h
  obtain ⟨gap, b, more, rfl, hgap, hb, -⟩ := List.filterMap_eq_cons_iff.mp hrest
  have hsplit : f.body = (items ++ gap) ++ b :: more := by rw [hbody, List.append_assoc]
  refine ⟨(items ++ gap).length, ?_, ?_⟩
  · rw [instruction?, hsplit, List.getElem?_append_right (Nat.le_refl _), Nat.sub_self]
    exact hb
  · intro k hk j hj
    rw [instruction?, hsplit, List.getElem?_append_left hk] at hj
    obtain ⟨b', hb', hj⟩ := Option.bind_eq_some_iff.mp hj
    rcases List.mem_append.mp (List.mem_of_getElem? hb') with hmem | hmem
    · exact List.mem_filterMap.mpr ⟨b', hmem, hj⟩
    · exact nomatch (hgap b' hmem).symm.trans hj

/-- What an instruction reads as an argument it reads. -/
lemma reads_of_argumentReads {hs : Helpers} {i : Instruction} {r : Register}
    (h : ∃ q ∈ f.argumentReads hs i, q.family = r.family) : i.Reads r := by
  obtain ⟨q, hq, hfamily⟩ := h
  rw [argumentReads] at hq
  split_ifs at hq with hcall
  · split at hq
    · refine ⟨q, ?_, hfamily⟩
      rw [Instruction.reads, Access.ofInstruction, if_pos hcall]
      exact List.mem_append_right _ (List.take_subset_take_left _ (Nat.min_le_right _ 3) hq)
    · cases hq
  · exact ⟨q, hq, hfamily⟩

/-- A way from the start of a body that passes a position without going through it has two
successive positions on both sides of it. -/
lemma exists_infix_over {way : List ℕ} {a n m : ℕ} (hlast : (a :: way).getLast? = some n)
    (ha : a < m) (hn : m < n) (hm : m ∉ way) :
    ∃ k k', [k, k'] <:+: a :: way ∧ k < m ∧ m < k' := by
  induction way generalizing a with
  | nil =>
    rw [List.getLast?_singleton, Option.some.injEq] at hlast
    omega
  | cons b way ih =>
    obtain ⟨hmb, hm⟩ := not_or.mp (mt List.mem_cons.mpr hm)
    rcases Nat.lt_or_gt_of_ne hmb with hlt | hgt
    · exact ⟨a, b, ⟨[], way, rfl⟩, ha, hlt⟩
    · obtain ⟨k, k', hinfix, hk, hk'⟩ := ih (by simpa using hlast) hgt hm
      exact ⟨k, k', hinfix.trans (List.suffix_cons a (b :: way)).isInfix, hk, hk'⟩

/-- A path jumps over every position that it passes without going through it. -/
lemma IsPath.jumpsOver {before : List ℕ} {n m : ℕ} (h : f.IsPath before n) (hn : m < n)
    (hm : m ∉ before) : f.JumpsOver (before ++ [n]) m := by
  have hmem : m ∉ before ++ [n] := by
    rw [List.mem_append, List.mem_singleton, not_or]
    exact ⟨hm, Nat.ne_of_lt hn⟩
  obtain ⟨way, hway⟩ := List.head?_eq_some_iff.mp h.start
  have hlast : (0 :: way).getLast? = some n := by rw [← hway, List.getLast?_concat]
  rw [hway, List.mem_cons, not_or] at hmem
  obtain ⟨k, k', hinfix, hk, hk'⟩ :=
    exists_infix_over hlast (Nat.pos_of_ne_zero hmem.1) hn hmem.2
  have hflow := h.flow
  rw [hway] at hflow ⊢
  have hstep := List.IsChain.infix hflow hinfix
  have hsuccessor : k' ∈ f.successors k := List.isChain_pair.mp hstep
  rcases List.mem_append.mp hsuccessor with hnext | hjump
  · -- The next position is not behind one in between.
    split_ifs at hnext
    · rw [List.mem_singleton] at hnext
      omega
    · cases hnext
  · obtain ⟨i, hi, hjump⟩ := List.mem_flatMap.mp hjump
    exact ⟨k, k', i, hinfix, hk, hk', Option.mem_toList.mp hi, hjump⟩

end SourceFunction

/-! ## Discovery -/

/-- A register that is read first is assigned to an argument. -/
lemma exists_slot_of_isRead {f : SourceFunction} {name : String} {s : Signature}
    {found : List FirstAccess} (h : f.discoverSignature name = .ok s)
    (hfound : f.firstAccesses = .ok found) {r : Register}
    (hr : r ∈ Register.integerArguments ++ Register.vectorArguments) {x : FirstAccess}
    (hx : found.find? (·.family == r.family) = some x) (hread : x.isRead = true) :
    ∃ y ∈ assignArguments s, y.place = .register r := by
  obtain ⟨found', name', a, b, c, hfound', -, rfl, hfits, hintegers, hfloats⟩ :=
    discoverSignature_eq_ok h
  obtain rfl : found = found' := Except.ok.inj (hfound.symm.trans hfound')
  obtain ⟨j, hj, hregister⟩ : ∃ j < a + b + c,
      (Signature.discover name' a b c).argumentRegister? j = some r := by
    rcases List.mem_append.mp hr with hr | hr
    · obtain ⟨j, hj⟩ := List.mem_iff_getElem?.mp hr
      have hlt := hintegers j r x hj hx hread
      exact ⟨j, by omega, (Signature.argumentRegister?_discover_integer hlt).trans hj⟩
    · obtain ⟨j, hj⟩ := List.mem_iff_getElem?.mp hr
      have hlt := hfloats j r x hj hx hread
      exact ⟨a + j, by omega, (Signature.argumentRegister?_discover_float hlt).trans hj⟩
  obtain ⟨y, hy, -, hplace⟩ :=
    Signature.exists_slot (s := Signature.discover name' a b c) (j := j) (by simpa using hj)
  exact ⟨y, hy, hplace.trans (Signature.place_of_some hregister)⟩

/-- If some path from the start of a body leads to an instruction that reads an argument register
and does not write the register's family on the way, the discovered signature has an argument in
this register, unless the path jumps over the first instruction of the body that touches the family
and this only writes it. -/
theorem discoverSignature_assigns {f : SourceFunction} {name : String} {s : Signature}
    (h : f.discoverSignature name = .ok s) {hs : Helpers} {before : List ℕ} {n : ℕ}
    (hpath : f.IsPath before n) {i : Instruction} (hi : f.instruction? n = some i) {r : Register}
    (hr : r ∈ Register.integerArguments ++ Register.vectorArguments)
    (hreads : ∃ q ∈ f.argumentReads hs i, q.family = r.family)
    (hbefore : ∀ k ∈ before, ∀ j ∈ f.instruction? k, ¬ j.Writes r) :
    (∃ x ∈ assignArguments s, x.place = .register r) ∨
      ∃ m, f.FirstWrites r m ∧ f.JumpsOver (before ++ [n]) m := by
  have hreads : i.Reads r := SourceFunction.reads_of_argumentReads hreads
  obtain ⟨found, -, -, -, -, hfound, -⟩ := discoverSignature_eq_ok h
  rcases FirstAccess.find?_of_foldlM hfound rfl with
    hnone | ⟨front, w, back, x, hsplit, hfront, htouches, hx, hread⟩
  · exact absurd (.inl hreads) (hnone i (SourceFunction.mem_instructions hi))
  by_cases hw : w.Reads r
  · exact .inl (exists_slot_of_isRead h hfound hr hx (hread.mpr hw))
  have hwrites : w.Writes r := htouches.resolve_left hw
  obtain ⟨m, hm, hearlier⟩ := SourceFunction.exists_position hsplit
  refine .inr ⟨m, ⟨⟨w, hm, hwrites, hw⟩, fun k hk j hj => hfront j (hearlier k hk j hj)⟩, ?_⟩
  -- The reading instruction touches the family too, so it comes later.
  have hlt : m < n := by
    rcases Nat.lt_trichotomy n m with hlt | rfl | hgt
    · exact absurd (.inl hreads) (hfront i (hearlier n hlt i hi))
    · obtain rfl := Option.some.inj (hi.symm.trans hm)
      exact absurd hreads hw
    · exact hgt
  exact hpath.jumpsOver hlt fun hmem => hbefore m hmem w hm hwrites

/-- A loop that is entered at its condition and reads the second argument at its start, which stands
before the condition in the source. -/
theorem discoverSignature_assigns_of_loop :
    let text := String.join [
      "f: push rbp\n", "mov rbp, rsp\n", "jmp .L2\n", ".L1: add rax, rsi\n",
      ".L2: cmp rdi, rax\n", "jne .L1\n", "leave\n", "ret\n"]
    ∃ records functions, Source.readUnit text = .ok records ∧
      extractFunctions records = .ok functions ∧ ∃ f ∈ functions, ∃ s,
        f.discoverSignature "" = .ok s ∧ f.IsPath [0, 3, 4, 5, 1] 2 ∧
        ((∃ x ∈ assignArguments s, x.place = .register .rsi) ∨
          ∃ m, f.FirstWrites .rsi m ∧ f.JumpsOver [0, 3, 4, 5, 1, 2] m) := by
  intro text
  obtain ⟨records, functions, hread, hextract, f, hf, hs, hpath, i, -, hi, hreads, hbefore⟩ :
      ∃ records functions, Source.readUnit text = .ok records ∧
        extractFunctions records = .ok functions ∧ ∃ f ∈ functions,
          (f.discoverSignature "").toOption.any (fun s => decide (s.args.length = 2)) = true ∧
          f.IsPath [0, 3, 4, 5, 1] 2 ∧ ∃ i ∈ f.instructions, f.instruction? 2 = some i ∧
            (∃ q ∈ f.argumentReads {} i, q.family = Register.rsi.family) ∧
            ∀ k ∈ [0, 3, 4, 5, 1], ∀ j ∈ f.instruction? k, ¬ j.Writes .rsi :=
    exists_functions_of_any (by decide +kernel)
  obtain ⟨s, hs, -⟩ := exists_ok_of_any hs
  exact ⟨records, functions, hread, hextract, f, hf, s, hs, hpath,
    discoverSignature_assigns hs hpath hi (by decide) hreads hbefore⟩

/-- A branch around an instruction that only writes the second argument register, which is read
where the branches meet: it is written first in the order of the source, and no argument is
discovered for it. -/
theorem not_discoverSignature_assigns :
    let text := String.join [
      "f: push rbp\n", "mov rbp, rsp\n", "test rdi, rdi\n", "je .L1\n", "mov rsi, rdi\n",
      ".L1: mov rax, rsi\n", "pop rbp\n", "ret\n"]
    ∃ records functions, Source.readUnit text = .ok records ∧
      extractFunctions records = .ok functions ∧ ∃ f ∈ functions, ∃ s,
        f.discoverSignature "" = .ok s ∧ f.IsPath [0, 1, 3] 4 ∧
        (∃ i ∈ f.instruction? 4, i.isCall = false ∧ i.Reads .rsi) ∧
        (∀ k ∈ [0, 1, 3], ∀ j ∈ f.instruction? k, ¬ j.Writes .rsi) ∧
        ∀ x ∈ assignArguments s, x.place ≠ .register .rsi := by
  intro text
  obtain ⟨records, functions, hread, hextract, f, hf, hs, hpath, hreads, hbefore⟩ :
      ∃ records functions, Source.readUnit text = .ok records ∧
        extractFunctions records = .ok functions ∧ ∃ f ∈ functions,
          (f.discoverSignature "").toOption.any (fun s => decide
            (∀ x ∈ assignArguments s, x.place ≠ .register .rsi)) = true ∧
          f.IsPath [0, 1, 3] 4 ∧
          (∃ i ∈ f.instruction? 4, i.isCall = false ∧ i.Reads .rsi) ∧
          ∀ k ∈ [0, 1, 3], ∀ j ∈ f.instruction? k, ¬ j.Writes .rsi :=
    exists_functions_of_any (by decide +kernel)
  obtain ⟨s, hs, hplaces⟩ := exists_ok_of_any hs
  exact ⟨records, functions, hread, hextract, f, hf, s, hs, hpath, hreads, hbefore, hplaces⟩

end AsmBridge
