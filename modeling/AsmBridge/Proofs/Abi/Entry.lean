import AsmBridge.Abi.Bridge
import AsmBridge.Proofs.Abi.Arguments
import AsmBridge.Proofs.Abi.Layout
import AsmBridge.Proofs.Target.Machine

/-!
# The state in which a body is entered

The lines before a body take the machine from the caller's conventions to those of the body. The
loads of the argument registers, the set-up of the frame, the moves of the spilled arguments and the
load of the pool address have one lemma each, which says what the lines do and what they leave as it
is; the lines as a whole then end in the state that a callee of the System V convention sees once it
has saved the frame pointer, `EntryState`.
-/

namespace AsmBridge

open TargetInstruction

variable {p : Placement} {s t : Machine}

/-! ## Loads of argument registers -/

/-- What the loads of argument registers do. -/
structure Loaded (p : Placement) (slots : List ArgSlot) (s t : Machine) : Prop where
  mem : t.mem = s.mem
  value : ∀ x ∈ slots, ∀ r, x.register? = some r →
    t.word? r = some (s.mem.load (p.slot s.sp x.offset))
  other : ∀ r, (∀ x ∈ slots, x.register? ≠ some r) → t.word? r = s.word? r

/-- One load moves the word of its slot. -/
lemma step?_loadArgument {x : ArgSlot} {r : Register} (hx : x.register? = some r)
    (p : Placement) (s : Machine) :
    ∃ i, loadArgument? x = some i ∧
      i.step? p s = (TargetOperand.reg r).write? p s (s.mem.load (p.slot s.sp x.offset)) := by
  refine ⟨_, by rw [loadArgument?, hx, Option.map_some], ?_⟩
  dsimp only
  split <;> rfl

/-- The loads of slots with different registers, none of them the stack pointer. -/
lemma run_loads (slots : List ArgSlot) (s : Machine)
    (hword : ∀ x ∈ slots, ∀ r, x.register? = some r → r.isWord = true ∧ r ≠ .rsp)
    (hdiff : slots.Pairwise fun x y => ∀ r, x.register? = some r → y.register? ≠ some r) :
    ∃ t, run p s (slots.filterMap loadArgument?) = some t ∧ Loaded p slots s t := by
  induction slots generalizing s with
  | nil => exact ⟨s, rfl, rfl, by simp, fun _ _ => rfl⟩
  | cons x slots ih =>
    obtain ⟨hhead, hdiff⟩ := List.pairwise_cons.mp hdiff
    have hword' : ∀ y ∈ slots, ∀ r, y.register? = some r → r.isWord = true ∧ r ≠ .rsp :=
      fun y hy => hword y (List.mem_cons_of_mem x hy)
    cases hx : x.register? with
    | none =>
      obtain ⟨t, hrun, hmem, hvalue, hother⟩ := ih s hword' hdiff
      refine ⟨t, ?_, hmem, ?_, ?_⟩
      · rw [List.filterMap_cons, loadArgument?, hx]
        exact hrun
      · intro y hy r hr
        rcases List.mem_cons.mp hy with rfl | hy
        · rw [hx] at hr
          cases hr
        · exact hvalue y hy r hr
      · intro r hr
        exact hother r fun y hy => hr y (List.mem_cons_of_mem x hy)
    | some r =>
      obtain ⟨hr, hsp⟩ := hword x List.mem_cons_self r hx
      obtain ⟨i, hi, hstep⟩ := step?_loadArgument hx p s
      obtain ⟨s', hwrite, hmem', hself, hother'⟩ := TargetOperand.exists_write? hr p s _
      have hsp' : s'.sp = s.sp := Machine.sp_congr (hother' _ hsp.symm)
      obtain ⟨t, hrun, hmem, hvalue, hother⟩ := ih s' hword' hdiff
      refine ⟨t, ?_, hmem.trans hmem', ?_, ?_⟩
      · rw [List.filterMap_cons, hi]
        dsimp only
        rw [run_cons, hstep, hwrite, Option.bind_some, hrun]
      · intro y hy q hq
        rcases List.mem_cons.mp hy with rfl | hy
        · obtain rfl : r = q := Option.some.inj (hx.symm.trans hq)
          rw [hother r fun z hz => hhead z hz r hx, hself]
        · rw [hvalue y hy q hq, hmem', hsp']
      · intro q hq
        have hne : q ≠ r := fun h => hq x List.mem_cons_self (h ▸ hx)
        rw [hother q fun y hy => hq y (List.mem_cons_of_mem x hy), hother' q hne]

/-! ## Moves of spilled arguments -/

/-- The address of a spilled argument above a frame base. -/
def spillAddress (base : Word) (n : ℕ) : Word := base + BitVec.ofNat 64 (16 + 8 * n)

/-- What the moves of spilled arguments do: each word arrives, other bytes stay, and only the
scratch register changes. -/
structure Spilled (p : Placement) (slots : List ArgSlot) (s t : Machine) : Prop where
  other : ∀ r ≠ .rax, t.word? r = s.word? r
  value : ∀ x ∈ slots, ∀ n, x.spill? = some n →
    t.mem.load (spillAddress s.bp n) = s.mem.load (p.slot s.sp x.offset)
  mem : ∀ a, (∀ x ∈ slots, ∀ n, x.spill? = some n → 8 ≤ (a - spillAddress s.bp n).toNat) →
    t.mem a = s.mem a

/-- The move of one spilled argument. -/
lemma run_spillArgument {x : ArgSlot} {n : ℕ} (hx : x.spill? = some n) (p : Placement)
    (s : Machine) :
    run p s (spillArgument x) =
      some ((s.setGp 0 (s.mem.load (p.slot s.sp x.offset))).setMem (spillAddress s.bp n)
        (s.mem.load (p.slot s.sp x.offset))) := by
  rw [spillArgument, hx]
  rfl

/-- The moves of slots with words apart from each other and from the argument area. -/
lemma run_spills (slots : List ArgSlot) (s : Machine)
    (hdiff : slots.Pairwise fun x y => ∀ m n, x.spill? = some m → y.spill? = some n →
      Memory.Apart (spillAddress s.bp n) (spillAddress s.bp m))
    (hsource : ∀ x ∈ slots, ∀ n, x.spill? = some n → ∀ y ∈ slots,
      Memory.Apart (spillAddress s.bp n) (p.slot s.sp y.offset)) :
    ∃ t, run p s (slots.flatMap spillArgument) = some t ∧ Spilled p slots s t := by
  induction slots generalizing s with
  | nil => exact ⟨s, rfl, fun _ _ => rfl, by simp, fun _ _ => rfl⟩
  | cons x slots ih =>
    obtain ⟨hhead, hdiff⟩ := List.pairwise_cons.mp hdiff
    have hsource' : ∀ y ∈ slots, ∀ n, y.spill? = some n → ∀ z ∈ slots,
        Memory.Apart (spillAddress s.bp n) (p.slot s.sp z.offset) := fun y hy n hn z hz =>
      hsource y (List.mem_cons_of_mem x hy) n hn z (List.mem_cons_of_mem x hz)
    cases hx : x.spill? with
    | none =>
      obtain ⟨t, hrun, hother, hvalue, hmem⟩ := ih s hdiff hsource'
      refine ⟨t, ?_, hother, ?_, ?_⟩
      · rw [List.flatMap_cons, spillArgument, hx]
        exact hrun
      · intro y hy n hn
        rcases List.mem_cons.mp hy with rfl | hy
        · rw [hx] at hn
          cases hn
        · exact hvalue y hy n hn
      · intro a ha
        exact hmem a fun y hy => ha y (List.mem_cons_of_mem x hy)
    | some n =>
      let v := s.mem.load (p.slot s.sp x.offset)
      let s' := (s.setGp 0 v).setMem (spillAddress s.bp n) v
      have hother' : ∀ r ≠ .rax, s'.word? r = s.word? r := fun r hr => s.word?_setGp_of_ne v hr
      have hbp : s'.bp = s.bp := Machine.bp_congr (hother' .rbp (by decide))
      have hsp : s'.sp = s.sp := Machine.sp_congr (hother' .rsp (by decide))
      obtain ⟨t, hrun, hother, hvalue, hmem⟩ := ih s' (by rwa [hbp]) (by rwa [hbp, hsp])
      rw [hbp] at hvalue hmem
      rw [hsp] at hvalue
      refine ⟨t, ?_, ?_, ?_, ?_⟩
      · rw [List.flatMap_cons, run_append (run_spillArgument hx p s)]
        exact hrun
      · intro r hr
        rw [hother r hr, hother' r hr]
      · intro y hy m hm
        rcases List.mem_cons.mp hy with rfl | hy
        · obtain rfl : n = m := Option.some.inj (hx.symm.trans hm)
          -- The word just stored is kept by the moves that follow.
          have hkeep : t.mem.load (spillAddress s.bp n) = s'.mem.load (spillAddress s.bp n) :=
            Memory.load_congr fun i hi =>
              hmem _ fun z hz m hm => (hhead z hz n m hx hm).le_sub hi
          rw [hkeep]
          exact s.mem.load_store _ v
        · rw [hvalue y hy m hm]
          exact s.mem.load_store_of_apart v
            (hsource x List.mem_cons_self n hx y (List.mem_cons_of_mem x hy))
      · intro a ha
        rw [hmem a fun y hy => ha y (List.mem_cons_of_mem x hy)]
        exact s.mem.store_apply_of_le _ _ _ (ha x List.mem_cons_self n hx)

/-! ## The set-up of the frame -/

/-- The lines that compute the frame base and save the stack pointer there. -/
lemma run_frameBase (l : FrameLayout) (p : Placement) (s : Machine) :
    run p s [.movq (.reg .rsp) (.reg .rbp), .addq l.baseOffset .rbp, .andq l.align .rbp,
        .movq (.reg .rsp) (.at .rbp 0)] =
      some ((s.setGp 5 (l.base s.sp)).setMem (l.base s.sp) s.sp) := by
  have hcopy : (TargetInstruction.movq (.reg .rsp) (.reg .rbp)).step? p s =
      some (s.setGp 5 s.sp) := rfl
  have hadd : ∀ v, (TargetInstruction.addq l.baseOffset .rbp).step? p (s.setGp 5 v) =
      some (s.setGp 5 (v + BitVec.ofInt 64 l.baseOffset)) := by
    intro v
    simp [step?, Register.rbp]
  have hand : ∀ v, (TargetInstruction.andq l.align .rbp).step? p (s.setGp 5 v) =
      some (s.setGp 5 (v &&& BitVec.ofInt 64 (-l.align))) := by
    intro v
    simp [step?, Register.rbp]
  have hsave : ∀ v, (TargetInstruction.movq (.reg .rsp) (.at .rbp 0)).step? p (s.setGp 5 v) =
      some ((s.setGp 5 v).setMem v s.sp) := by
    intro v
    simp [step?, Register.rbp, Register.rsp, TargetOperand.read?, TargetOperand.write?,
      TargetOperand.address?, Machine.word?, Machine.sp]
  simp only [run_cons, hcopy, hadd, hand, hsave, Option.bind_some, run_nil]
  rfl

/-- What the lines of a frame do. -/
structure Framed (p : Placement) (slots : List ArgSlot) (l : FrameLayout) (s t : Machine) :
    Prop where
  other : ∀ r, r ≠ .rax → r ≠ .rbp → r ≠ .rsp → t.word? r = s.word? r
  bp_eq : t.bp = l.base s.sp
  sp_eq : t.sp = l.base s.sp
  saved : t.mem.load (l.base s.sp) = s.sp
  value : ∀ x ∈ slots, ∀ n, x.spill? = some n →
    t.mem.load (spillAddress (l.base s.sp) n) = s.mem.load (p.slot s.sp x.offset)
  mem : ∀ a, 8 ≤ (a - l.base s.sp).toNat →
    (∀ x ∈ slots, ∀ n, x.spill? = some n → 8 ≤ (a - spillAddress (l.base s.sp) n).toNat) →
    t.mem a = s.mem a

/-- The words that the lines of a frame write and read do not meet. -/
structure FrameApart (p : Placement) (slots : List ArgSlot) (base sp : Word) : Prop where
  spills : slots.Pairwise fun x y => ∀ m n, x.spill? = some m → y.spill? = some n →
    Memory.Apart (spillAddress base n) (spillAddress base m)
  base_spill : ∀ x ∈ slots, ∀ n, x.spill? = some n → Memory.Apart (spillAddress base n) base
  base_slot : ∀ x ∈ slots, Memory.Apart base (p.slot sp x.offset)
  spill_slot : ∀ x ∈ slots, ∀ n, x.spill? = some n → ∀ y ∈ slots,
    Memory.Apart (spillAddress base n) (p.slot sp y.offset)

/-- The lines of a frame. The argument area is read before the stack pointer moves. -/
lemma run_frameLines {slots : List ArgSlot} {l : FrameLayout} (s : Machine)
    (h : FrameApart p slots (l.base s.sp) s.sp) :
    ∃ t, run p s (frameLines slots l) = some t ∧ Framed p slots l s t := by
  let b := l.base s.sp
  let s' := (s.setGp 5 b).setMem b s.sp
  have hother' : ∀ r ≠ .rbp, s'.word? r = s.word? r := fun r hr => s.word?_setGp_of_ne b hr
  have hbp : s'.bp = b := by simp [s', Machine.bp]
  have hsp : s'.sp = s.sp := Machine.sp_congr (hother' .rsp (by decide))
  obtain ⟨u, hrun, hother, hvalue, hmem⟩ := run_spills (p := p) slots s'
    (by rw [hbp]; exact h.spills) (by rw [hbp, hsp]; exact h.spill_slot)
  rw [hbp] at hvalue hmem
  have hubp : u.bp = b := (Machine.bp_congr (hother .rbp (by decide))).trans hbp
  let t := u.setGp 4 u.bp
  have hlast : run p u [.movq (.reg .rbp) (.reg .rsp)] = some t := rfl
  refine ⟨t, ?_, ?_, ?_, ?_, ?_, ?_, ?_⟩
  · rw [frameLines, List.append_assoc, run_append (run_frameBase l p s), run_append hrun, hlast]
  · intro r hrax hrbp hrsp
    rw [← hother' r hrbp, ← hother r hrax]
    exact u.word?_setGp_of_ne u.bp hrsp
  · refine Eq.trans ?_ hubp
    simp [t, Machine.bp]
  · refine Eq.trans ?_ hubp
    simp [t, Machine.sp]
  · have hkeep : u.mem.load b = s'.mem.load b :=
      Memory.load_congr fun i hi => hmem _ fun x hx n hn => (h.base_spill x hx n hn).le_sub hi
    rw [show t.mem = u.mem from rfl, hkeep]
    exact s.mem.load_store b s.sp
  · intro x hx n hn
    rw [show t.mem = u.mem from rfl, hvalue x hx n hn, hsp]
    exact s.mem.load_store_of_apart s.sp (h.base_slot x hx)
  · intro a ha hspills
    rw [show t.mem a = u.mem a from rfl, hmem a hspills]
    exact s.mem.store_apply_of_le b s.sp a ha

/-! ## The load of the pool address -/

/-- The register of the pool address is one of the candidates. -/
lemma mem_poolCandidates {f : SourceFunction} {r : Register} (h : f.poolRegister = .ok r) :
    r ∈ poolCandidates := by
  obtain ⟨used, -, h⟩ := bind_eq_ok.mp h
  split at h
  · rename_i q hq
    obtain rfl := pure_eq_ok.mp h
    exact List.mem_of_find?_eq_some hq
  · cases h

/-- The pool address can be loaded into each of the candidates. -/
lemma loadPool_eq_ok {r : Register} (hr : r ∈ poolCandidates) (name : String) :
    loadPool name r = .ok (.leaq name r) := by
  have hname : ∀ q ∈ poolCandidates, q.targetName?.isSome = true := by
    simp [poolCandidates, Register.rbx, Register.targetName?]
  rw [loadPool, if_pos (hname r hr)]

/-- The load of the pool address, if there is one, changes the register of the pool only. -/
lemma run_anchor {pool : Option Register} (hpool : ∀ r ∈ pool, r ∈ poolCandidates)
    (name : String) (p : Placement) :
    ∃ anchor, (pool.mapM (loadPool name) : Except Stop _) = .ok anchor ∧
      ∀ s, ∃ t, run p s anchor.toList = some t ∧ t.mem = s.mem ∧
        (∀ r ∈ pool, t.word? r = some (p.datum name)) ∧
        ∀ q, q ∉ poolCandidates → t.word? q = s.word? q := by
  cases pool with
  | none => exact ⟨none, rfl, fun s => ⟨s, rfl, rfl, by simp, fun _ _ => rfl⟩⟩
  | some r =>
    have hword : ∀ q ∈ poolCandidates, ∃ n, q = .gp .w64 n := by
      simp [poolCandidates, Register.rbx]
    have hr := hpool r rfl
    obtain ⟨n, rfl⟩ := hword r hr
    refine ⟨some (.leaq name (.gp .w64 n)), ?_, ?_⟩
    · rw [Option.mapM_some, loadPool_eq_ok hr]
      rfl
    · intro s
      refine ⟨s.setGp n (p.datum name), rfl, rfl, ?_, ?_⟩
      · rintro q ⟨⟩
        exact s.word?_setGp_self n _
      · intro q hq
        exact s.word?_setGp_of_ne _ fun h => hq (h ▸ hr)

/-! ## The state of a callee -/

/-- The word of an argument, by its number, in the caller's argument area. -/
def Machine.argument (p : Placement) (s : Machine) (j : ℕ) : Word :=
  s.mem.load (p.slot s.sp (8 * j))

/-- What a caller provides for a frame: a stack pointer that is a multiple of eight, and a frame
above it that neither wraps nor meets a slot of the argument area. -/
structure CallerState (sig : Signature) (l : FrameLayout) (p : Placement) (s : Machine) : Prop where
  sp_dvd : 8 ∣ s.sp.toNat
  frame_le : s.sp.toNat + l.size ≤ 2 ^ 64
  slot_le : ∀ j < sig.args.length, (p.slot s.sp (8 * j)).toNat + 8 ≤ 2 ^ 64
  slot_outside : ∀ j < sig.args.length, (p.slot s.sp (8 * j)).toNat + 8 ≤ s.sp.toNat ∨
    s.sp.toNat + l.size ≤ (p.slot s.sp (8 * j)).toNat

/-- The state `t` that a callee of the System V convention sees once it has saved the frame pointer,
for a caller in state `s`. Register arguments are in the registers of their ranks, the others on the
stack above the slots of the saved frame pointer and the return address. A framed body has an
aligned frame base with the caller's stack pointer in it and the room it needs below; only the frame
has been written. -/
structure EntryState (sig : Signature) (l : FrameLayout) (p : Placement) (s t : Machine) :
    Prop where
  register : ∀ j < sig.args.length, ∀ r, sig.argumentRegister? j = some r →
    t.word? r = some (s.argument p j)
  stack : ∀ j < sig.args.length, sig.argumentRegister? j = none →
    t.mem.load (spillAddress t.bp (sig.stackRank j)) = s.argument p j
  base_dvd : l.framed = true → l.align ∣ t.bp.toNat
  sp_eq : l.framed = true → t.sp = t.bp
  saved : l.framed = true → t.mem.load t.bp = s.sp
  room_le : l.framed = true → s.sp.toNat + l.room ≤ t.bp.toNat
  top_le : l.framed = true →
    t.bp.toNat + 16 + 8 * (sig.stackRank sig.args.length : ℤ) ≤ s.sp.toNat + l.size
  frameless : l.framed = false → t.sp = s.sp ∧ t.bp = s.bp
  mem_outside : ∀ a : Word, a.toNat < s.sp.toNat ∨ s.sp.toNat + l.size ≤ a.toNat →
    t.mem a = s.mem a

variable {sig : Signature} {l : FrameLayout}

/-- Argument registers hold words, and none of them takes part in the set-up of a frame or holds
the pool address. -/
lemma argumentRegister_spec {j : ℕ} {r : Register} (h : sig.argumentRegister? j = some r) :
    r.isWord = true ∧ r ≠ .rax ∧ r ≠ .rbp ∧ r ≠ .rsp ∧ r ∉ poolCandidates := by
  obtain ⟨c, -, hr⟩ := Option.bind_eq_some_iff.mp h
  have hall : ∀ c : ArgClass, ∀ r ∈ c.registers,
      r.isWord = true ∧ r ≠ .rax ∧ r ≠ .rbp ∧ r ≠ .rsp ∧ r ∉ poolCandidates := by
    intro c
    cases c <;> decide
  exact hall c r (List.mem_of_getElem? hr)

/-- The loads of the arguments of a signature. -/
lemma run_argumentLoads (sig : Signature) (p : Placement) (s : Machine) :
    ∃ t, run p s ((assignArguments sig).filterMap loadArgument?) = some t ∧
      Loaded p (assignArguments sig) s t := by
  apply run_loads
  · intro x hx r hr
    obtain ⟨j, -, -, hplace⟩ := sig.exists_of_mem_assignArguments hx
    rw [Signature.register?_of_place hplace] at hr
    obtain ⟨hword, -, -, hsp, -⟩ := argumentRegister_spec hr
    exact ⟨hword, hsp⟩
  · refine sig.assignArguments_pairwise.imp_of_mem ?_
    intro x y hx hy hxy r hr hr'
    obtain ⟨i, -, hi, hplace⟩ := sig.exists_of_mem_assignArguments hx
    obtain ⟨j, -, hj, hplace'⟩ := sig.exists_of_mem_assignArguments hy
    rw [Signature.register?_of_place hplace] at hr
    rw [Signature.register?_of_place hplace'] at hr'
    have hij := Signature.argumentRegister?_inj hr hr'
    omega

/-- The address of a word on the stack inside a frame that does not wrap. -/
lemma toNat_spillAddress (base : Word) {n : ℕ} (h : base.toNat + 16 + 8 * n < 2 ^ 64) :
    (spillAddress base n).toNat = base.toNat + 16 + 8 * n := by
  rw [spillAddress, BitVec.toNat_add, BitVec.toNat_ofNat]
  omega

/-- The words of a planned frame do not meet each other or the argument area. -/
lemma frameApart {k : ℕ} (hl : l.IsPlanned) (hk : l.align = 2 ^ k) (hf : l.framed = true)
    (hspills : l.spills = sig.stackRank sig.args.length) (hs : CallerState sig l p s) :
    FrameApart p (assignArguments sig) (l.base s.sp) s.sp := by
  obtain ⟨-, hlow, -, htop⟩ := FrameLayout.base_spec hl hk hf hs.sp_dvd hs.frame_le
  have hframe := hs.frame_le
  rw [hspills] at htop
  -- A slot without a register has its word between the return address and the end of the frame.
  have hspill : ∀ x ∈ assignArguments sig, ∀ n, x.spill? = some n →
      (spillAddress (l.base s.sp) n).toNat = (l.base s.sp).toNat + 16 + 8 * n ∧
        n < sig.stackRank sig.args.length := by
    intro x hx n hn
    obtain ⟨j, hj, -, hplace⟩ := sig.exists_of_mem_assignArguments hx
    obtain ⟨hnone, rfl⟩ := (Signature.spill?_of_place hplace).mp hn
    have hlt := Signature.stackRank_lt hnone hj
    exact ⟨toNat_spillAddress _ (by omega), hlt⟩
  have hslot : ∀ x ∈ assignArguments sig, (p.slot s.sp x.offset).toNat + 8 ≤ 2 ^ 64 ∧
      ((p.slot s.sp x.offset).toNat + 8 ≤ s.sp.toNat ∨
        s.sp.toNat + l.size ≤ (p.slot s.sp x.offset).toNat) := by
    intro x hx
    obtain ⟨j, hj, hoffset, -⟩ := sig.exists_of_mem_assignArguments hx
    rw [hoffset]
    exact ⟨hs.slot_le j hj, hs.slot_outside j hj⟩
  refine ⟨?_, ?_, ?_, ?_⟩
  · refine sig.assignArguments_pairwise.imp_of_mem ?_
    intro x y hx hy hxy m n hm hn
    obtain ⟨i, -, hi, hplace⟩ := sig.exists_of_mem_assignArguments hx
    obtain ⟨j, -, hj, hplace'⟩ := sig.exists_of_mem_assignArguments hy
    obtain ⟨hm', hmlt⟩ := hspill x hx m hm
    obtain ⟨hn', hnlt⟩ := hspill y hy n hn
    obtain ⟨hnone, rfl⟩ := (Signature.spill?_of_place hplace).mp hm
    obtain ⟨-, rfl⟩ := (Signature.spill?_of_place hplace').mp hn
    have hlt : sig.stackRank i < sig.stackRank j := Signature.stackRank_lt hnone (by omega)
    refine ⟨?_, ?_, ?_⟩ <;> omega
  · intro x hx n hn
    obtain ⟨hn', hnlt⟩ := hspill x hx n hn
    refine ⟨?_, ?_, ?_⟩ <;> omega
  · intro x hx
    obtain ⟨hle, hout⟩ := hslot x hx
    refine ⟨?_, ?_, ?_⟩ <;> omega
  · intro x hx n hn y hy
    obtain ⟨hn', hnlt⟩ := hspill x hx n hn
    obtain ⟨hle, hout⟩ := hslot y hy
    refine ⟨?_, ?_, ?_⟩ <;> omega

/-- The loads change argument registers only. -/
lemma Loaded.keep (ht : Loaded p (assignArguments sig) s t) {q : Register}
    (hq : q ∉ ArgClass.integer.registers ++ ArgClass.float.registers) :
    t.word? q = s.word? q := by
  refine ht.other q fun x hx hr => hq ?_
  obtain ⟨j, -, -, hplace⟩ := sig.exists_of_mem_assignArguments hx
  rw [Signature.register?_of_place hplace] at hr
  obtain ⟨c, -, hreg⟩ := Option.bind_eq_some_iff.mp hr
  have hmem := List.mem_of_getElem? hreg
  cases c <;> simp [hmem]

/-- Without a frame the loads alone enter the body. -/
lemma entryState_of_loaded (hf : l.framed = false)
    (hspills : sig.stackRank sig.args.length = 0) (ht : Loaded p (assignArguments sig) s t) :
    EntryState sig l p s t := by
  refine ⟨?_, ?_, ?_, ?_, ?_, ?_, ?_, ?_, ?_⟩
  · intro j hj r hr
    obtain ⟨x, hx, hoffset, hplace⟩ := sig.exists_slot hj
    rw [ht.value x hx r ((Signature.register?_of_place hplace).trans hr), hoffset,
      Machine.argument]
  · intro j hj hnone
    have hlt := Signature.stackRank_lt hnone hj
    omega
  · simp [hf]
  · simp [hf]
  · simp [hf]
  · simp [hf]
  · simp [hf]
  · intro _
    exact ⟨Machine.sp_congr (ht.keep (by decide)), Machine.bp_congr (ht.keep (by decide))⟩
  · intro a _
    rw [ht.mem]

/-- With a frame the loads and the lines of the frame enter the body. -/
lemma entryState_of_framed {u : Machine} {k : ℕ} (hl : l.IsPlanned) (hk : l.align = 2 ^ k)
    (hf : l.framed = true) (hspills : l.spills = sig.stackRank sig.args.length)
    (hs : CallerState sig l p s) (hu : Loaded p (assignArguments sig) s u)
    (ht : Framed p (assignArguments sig) l u t) : EntryState sig l p s t := by
  have hsp : u.sp = s.sp := Machine.sp_congr (hu.keep (by decide))
  obtain ⟨hdvd, hlow, hroom, htop⟩ :=
    FrameLayout.base_spec hl hk hf hs.sp_dvd hs.frame_le
  obtain ⟨hother, hbp, hsp', hsaved, hvalue, hmem⟩ := ht
  rw [hsp] at hbp hsp' hsaved hvalue hmem
  rw [hu.mem] at hvalue hmem
  have hframe := hs.frame_le
  rw [hspills] at htop
  refine ⟨?_, ?_, ?_, ?_, ?_, ?_, ?_, ?_, ?_⟩
  · intro j hj r hr
    obtain ⟨x, hx, hoffset, hplace⟩ := sig.exists_slot hj
    obtain ⟨-, hrax, hrbp, hrsp, -⟩ := argumentRegister_spec hr
    rw [hother r hrax hrbp hrsp,
      hu.value x hx r ((Signature.register?_of_place hplace).trans hr), hoffset, Machine.argument]
  · intro j hj hnone
    obtain ⟨x, hx, hoffset, hplace⟩ := sig.exists_slot hj
    rw [hbp, hvalue x hx _ ((Signature.spill?_of_place hplace).mpr ⟨hnone, rfl⟩), hoffset,
      Machine.argument]
  · rw [hbp]
    exact fun _ => hdvd
  · exact fun _ => hsp'.trans hbp.symm
  · rw [hbp]
    exact fun _ => hsaved
  · rw [hbp]
    exact fun _ => hroom
  · rw [hbp]
    exact fun _ => htop
  · simp [hf]
  · intro a ha
    apply hmem
    · bv_omega
    · intro x hx n hn
      obtain ⟨j, hj, -, hplace⟩ := sig.exists_of_mem_assignArguments hx
      obtain ⟨hnone, rfl⟩ := (Signature.spill?_of_place hplace).mp hn
      have hlt := Signature.stackRank_lt hnone hj
      have haddr := toNat_spillAddress (l.base s.sp) (n := sig.stackRank j) (by omega)
      bv_omega

/-- The load of the pool address keeps the state of a callee. -/
lemma EntryState.anchor {u : Machine} (h : EntryState sig l p s u) (hmem : t.mem = u.mem)
    (hkeep : ∀ q, q ∉ poolCandidates → t.word? q = u.word? q) : EntryState sig l p s t := by
  have hbp : t.bp = u.bp := Machine.bp_congr (hkeep .rbp (by decide))
  have hsp : t.sp = u.sp := Machine.sp_congr (hkeep .rsp (by decide))
  constructor
  · intro j hj r hr
    obtain ⟨-, -, -, -, hcand⟩ := argumentRegister_spec hr
    rw [hkeep r hcand, h.register j hj r hr]
  · rw [hmem, hbp]
    exact h.stack
  · rw [hbp]
    exact h.base_dvd
  · rw [hsp, hbp]
    exact h.sp_eq
  · rw [hmem, hbp]
    exact h.saved
  · rw [hbp]
    exact h.room_le
  · rw [hbp]
    exact h.top_le
  · rw [hsp, hbp]
    exact h.frameless
  · rw [hmem]
    exact h.mem_outside

/-- The lines before a body are there for a planned frame. -/
lemma preamble_eq (slots : List ArgSlot) {pool : Option Register} {name : String}
    {anchor : Option TargetInstruction} (hl : l.IsPlanned)
    (hslots : l.framed = false → ∀ x ∈ slots, x.register?.isNone = false)
    (hanchor : (pool.mapM (loadPool name) : Except Stop _) = .ok anchor) :
    preamble slots l name pool = .ok (slots.filterMap loadArgument? ++
      (if l.framed then frameLines slots l else []) ++ anchor.toList) := by
  have halign : l.align ≠ 0 := by
    have := hl.align_ge
    omega
  have hspills : (!l.framed && slots.any (·.register?.isNone)) = false := by
    cases hf : l.framed with
    | true => rfl
    | false =>
      rw [Bool.not_false, Bool.true_and, List.any_eq_false]
      intro x hx
      rw [hslots hf x hx]
      exact Bool.false_ne_true
  rw [preamble, hspills, hanchor]
  simp [halign]

/-- A function whose frame is planned has lines before its body. -/
lemma exists_preamble {f : SourceFunction} {slots : List ArgSlot} {reserve : ℕ}
    {pool : Option Register} (name : String) (hplan : f.planFrame slots reserve = .ok l)
    (hpool : ∀ r ∈ pool, f.poolRegister = .ok r) :
    ∃ lines, preamble slots l name pool = .ok lines := by
  have hl := SourceFunction.planFrame_isPlanned hplan
  have hunframed : l.framed = false → ∀ x ∈ slots, x.register?.isNone = false := by
    intro hf x hx
    have hspills := hl.spills_of_unframed hf
    obtain ⟨-, align, -, rfl⟩ := SourceFunction.planFrame_eq hplan
    have hzero : slots.countP (·.register?.isNone) = 0 := Int.natCast_eq_zero.mp hspills
    exact Bool.eq_false_iff.mpr (List.countP_eq_zero.mp hzero x hx)
  obtain ⟨anchor, hanchor⟩ : ∃ anchor, (pool.mapM (loadPool name) : Except Stop _) = .ok anchor := by
    cases pool with
    | none => exact ⟨none, rfl⟩
    | some r =>
      rw [Option.mapM_some, loadPool_eq_ok (mem_poolCandidates (hpool r rfl))]
      exact ⟨_, rfl⟩
  exact ⟨_, preamble_eq slots hl hunframed hanchor⟩

/-- The lines before a body end in the state that a callee of the System V convention sees, with the
address of the constant pool in its register. This holds for every mix of argument classes, any
number of arguments and every stack pointer that is a multiple of eight. -/
theorem preamble_entryState {f : SourceFunction} {reserve k : ℕ} {pool : Option Register}
    (name : String) (hplan : f.planFrame (assignArguments sig) reserve = .ok l)
    (hk : l.align = 2 ^ k) (hpool : ∀ r ∈ pool, f.poolRegister = .ok r)
    (hs : CallerState sig l p s) :
    ∃ lines t, preamble (assignArguments sig) l name pool = .ok lines ∧
      run p s lines = some t ∧ EntryState sig l p s t ∧
      ∀ r ∈ pool, t.word? r = some (p.datum name) := by
  have hl := SourceFunction.planFrame_isPlanned hplan
  have hspills : l.spills = sig.stackRank sig.args.length := by
    obtain ⟨-, align, -, rfl⟩ := SourceFunction.planFrame_eq hplan
    exact congrArg Nat.cast sig.countP_assignArguments
  obtain ⟨anchor, hanchor, hrunAnchor⟩ :=
    run_anchor (fun r hr => mem_poolCandidates (hpool r hr)) name p
  obtain ⟨u, hrunLoads, hu⟩ := run_argumentLoads sig p s
  have hunframed : l.framed = false → sig.stackRank sig.args.length = 0 := by
    intro hf
    have hzero := hl.spills_of_unframed hf
    omega
  have hlines := preamble_eq (assignArguments sig) hl ?_ hanchor
  -- The body is entered before the pool address is loaded.
  obtain ⟨v, hrunFrame, hv⟩ : ∃ v,
      run p u (if l.framed then frameLines (assignArguments sig) l else []) = some v ∧
        EntryState sig l p s v := by
    cases hf : l.framed with
    | false => exact ⟨u, rfl, entryState_of_loaded hf (hunframed hf) hu⟩
    | true =>
      have hsp : u.sp = s.sp := Machine.sp_congr (hu.keep (by decide))
      have hapart := frameApart hl hk hf hspills hs
      rw [← hsp] at hapart
      obtain ⟨v, hrun, hv⟩ := run_frameLines u hapart
      exact ⟨v, hrun, entryState_of_framed hl hk hf hspills hs hu hv⟩
  obtain ⟨t, hrun, hmem, hdatum, hkeep⟩ := hrunAnchor v
  refine ⟨_, t, hlines, ?_, hv.anchor hmem hkeep, hdatum⟩
  · rw [List.append_assoc, run_append hrunLoads, run_append hrunFrame, hrun]
  · intro hf x hx
    obtain ⟨j, hj, -, hplace⟩ := sig.exists_of_mem_assignArguments hx
    rw [Signature.register?_of_place hplace]
    by_contra hnone
    have hlt := Signature.stackRank_lt (s := sig) (by simpa using hnone) hj
    have hzero := hunframed hf
    omega

/-- The state of a callee with one argument on the stack, in a frame aligned to 32 bytes that is
entered with a stack pointer eight bytes off. -/
theorem preamble_entryState_of_seven_integers :
    let sig : Signature :=
      { name := "f"
        args := ⟨"x", "float64"⟩ ::
          ["a", "b", "c", "d", "e", "f", "g"].map fun name => ⟨name, "int64"⟩ }
    let f : SourceFunction := { label := "f", locals := 16, realign := 32 }
    let l : FrameLayout := { locals := 16, spills := 1, align := 32, realign := 32 }
    let p : Placement := { args := 256, datum := fun _ => 8192 }
    let s : Machine := { gp := fun _ => 4104, vec := fun _ => 0, mem := fun a => ⟨a.setWidth 8⟩ }
    f.planFrame (assignArguments sig) 0 = .ok l ∧ CallerState sig l p s ∧
      ∃ lines t, preamble (assignArguments sig) l "pool" (some .rbx) = .ok lines ∧
        run p s lines = some t ∧ EntryState sig l p s t ∧
        ∀ r ∈ some Register.rbx, t.word? r = some (p.datum "pool") := by
  intro sig f l p s
  have hplan : f.planFrame (assignArguments sig) 0 = .ok l := by decide +kernel
  have hpool : ∀ r ∈ some Register.rbx, f.poolRegister = .ok r := by
    rintro r ⟨⟩
    decide
  have hs : CallerState sig l p s := by
    refine ⟨?_, ?_, ?_, ?_⟩ <;> decide
  exact ⟨hplan, hs, preamble_entryState "pool" (k := 5) hplan rfl hpool hs⟩

end AsmBridge
