import AsmBridge.Proofs.Abi.Operation

/-!
# Inputs that are read

The reads of an instruction with a form are the registers of its addresses, those of its operands
but for a first one that is marked as written only, and those that its name implies
(`exists_access`). Held against what the operation takes in, nothing is missing but the stack
pointer of instructions that push or pop, and the first operand of those that the table marks as
moves.
-/

namespace AsmBridge

/-! ## Families of registers -/

@[simp] lemma Register.family_family (r : Register) : r.family.family = r.family := by
  cases r <;> rfl

namespace Access

/-- The families of the registers in a row of operands. -/
def families (ops : List Operand) : List Register :=
  (ops.filterMap Placed.register?).map Register.family

lemma families_append (ops ops' : List Operand) :
    families (ops ++ ops') = families ops ++ families ops' := by
  rw [families, List.filterMap_append, List.map_append, families, families]

/-- The registers in a row of operands are those that are operands. -/
lemma mem_families {ops : List Operand} {r : Register} :
    r ∈ families ops ↔ ∃ q, .reg q ∈ ops ∧ q.family = r := by
  simp only [families, List.mem_map, List.mem_filterMap]
  constructor
  · rintro ⟨q, ⟨o, ho, hq⟩, hr⟩
    cases o with
    | reg q' => exact ⟨q, Option.some.inj hq ▸ ho, hr⟩
    | _ => cases hq
  · rintro ⟨q, hq, hr⟩
    exact ⟨q, ⟨_, hq, rfl⟩, hr⟩

/-- The reads of an operand that is read are its register. -/
lemma families_ofOperand {mnemonic : String} {o : Operand} {role : Role}
    (h : role.use.reads = true) :
    (ofOperand mnemonic o role).reads.map Register.family = families [o] := by
  cases o with
  | reg r =>
    rw [ofOperand]
    by_cases hcounter : r = .gp .w8 1 ∧ role.type = some (.fixed (.gp .w8 1))
    · rw [if_pos hcounter, hcounter.1]
      rfl
    · rw [if_neg hcounter]
      simp only [h, if_true]
      rfl
  | _ => rfl

/-- An operand that is only written is not read, but for the counter. -/
lemma reads_ofOperand_of_write {mnemonic : String} {o : Operand} {role : Role}
    (h : role.use.reads = false) (htype : role.type ≠ some (.fixed (.gp .w8 1))) :
    (ofOperand mnemonic o role).reads = [] := by
  cases o with
  | reg r =>
    rw [ofOperand, if_neg fun hcounter => htype hcounter.2]
    simp only [h, Bool.false_eq_true, if_false]
  | _ => rfl

/-- The reads of a row of operands are those of its members in order. -/
lemma reads_foldl_append (mnemonic : String) (ps : List (Operand × Role)) (a : Access) :
    (ps.foldl (fun acc p => acc.append (ofOperand mnemonic p.1 p.2)) a).reads =
      a.reads ++ ps.flatMap fun p => (ofOperand mnemonic p.1 p.2).reads := by
  induction ps generalizing a with
  | nil => simp
  | cons p ps ih => rw [List.foldl_cons, ih, append, List.flatMap_cons, List.append_assoc]

/-- The reads of operands that are all read are their registers. -/
lemma families_flatMap {mnemonic : String} {ps : List (Operand × Role)}
    (h : ∀ p ∈ ps, p.2.use.reads = true) :
    (ps.flatMap fun p => (ofOperand mnemonic p.1 p.2).reads).map Register.family =
      families (ps.map Prod.fst) := by
  induction ps with
  | nil => rfl
  | cons p ps ih =>
    obtain ⟨hp, hps⟩ := List.forall_mem_cons.mp h
    rw [List.flatMap_cons, List.map_append, families_ofOperand hp, ih hps, ← families_append,
      List.singleton_append, List.map_cons]

end Access

/-! ## Reads of operands -/

namespace Form

/-- How the form uses its operands. -/
def roles (f : Form) : List Access.Role :=
  (f.types.zip f.slots).map fun p => ⟨p.2.use, some p.1⟩

/-- The first operand is read, if there is one. -/
def readsHead (f : Form) : Bool := f.slots.head?.all (·.use.reads)

/-- The operands that are read. -/
def readOperands (f : Form) (ops : List Operand) : List Operand :=
  if f.readsHead then ops else ops.drop 1

/-- The reads of the operands of a form of the table are the registers in all of them, or in all but
the first one. -/
lemma IsListed.families_reads {f : Form} (hf : f.IsListed) {ops : List Operand}
    (hlen : f.types.length = ops.length) (mnemonic : String) :
    ((ops.zip f.roles).flatMap fun p => (Access.ofOperand mnemonic p.1 p.2).reads).map
      Register.family = Access.families (f.readOperands ops) := by
  have hslots := hf.isReadable.length_slots
  obtain ⟨entry, hentry, hf⟩ := hf
  have htail := (Table.isMarked entry hentry).tail f hf
  have hhead := (Table.isMarked entry hentry).not_counter f hf
  rw [readOperands, readsHead, roles]
  cases ops with
  | nil => simp [Access.families]
  | cons o os =>
    obtain ⟨t, ts, hts⟩ := List.exists_cons_of_length_pos (l := f.types) (by rw [hlen]; simp)
    obtain ⟨s, ss, hss⟩ :=
      List.exists_cons_of_length_pos (l := f.slots) (by rw [hslots, hlen]; simp)
    rw [hts, List.head?_cons] at hhead
    rw [hss, List.tail_cons] at htail
    rw [hts, hss, List.length_cons, List.length_cons] at hslots
    rw [hts, List.length_cons, List.length_cons] at hlen
    have hrest : ((os.zip ((ts.zip ss).map fun p => (⟨p.2.use, some p.1⟩ : Access.Role))).flatMap
        fun p => (Access.ofOperand mnemonic p.1 p.2).reads).map Register.family =
          Access.families os := by
      rw [Access.families_flatMap, List.map_fst_zip]
      · rw [List.length_map, List.length_zip]
        omega
      · intro p hp
        obtain ⟨q, hq, hpq⟩ := List.mem_map.mp (List.of_mem_zip hp).2
        rw [← hpq]
        exact htail _ (List.of_mem_zip hq).2
    rw [hts, hss, List.zip_cons_cons, List.map_cons, List.zip_cons_cons, List.flatMap_cons,
      List.map_append, hrest, List.head?_cons, Option.all_some, List.drop_one, List.tail_cons]
    cases hread : s.use.reads with
    | true =>
      rw [Access.families_ofOperand hread, if_pos rfl, ← Access.families_append,
        List.singleton_append]
    | false =>
      rw [Access.reads_ofOperand_of_write hread fun h => hhead h]
      rfl

end Form

/-! ## Reads that are not named -/

namespace Operation

/-- Why a register that an instruction does not name is among its reads, although it is not taken
in. -/
inductive Spurious (i : Instruction) (r : Register) : Prop
  /-- The counter of a mark that has no effect. -/
  | counter (hname : (stringMoves ++ stringStores).contains i.mnemonic = false)
    (hmark : repeats i = true) (hr : r.family = .rcx)
  /-- The upper half of a dividend, if no width is named. -/
  | upper (hname : ["div", "idiv"].contains i.mnemonic = true) (hbyte : isByte i = true)
    (hr : r.family = .rdx)

/-- Registers that are read without a name: those that are taken in, but for the stack pointer, and
spurious ones. -/
structure IsImplicit (i : Instruction) (b : Access) : Prop where
  reads : ["push", "pop"].contains i.mnemonic = false → ∀ r ∈ implied i,
    r ∈ b.reads.map Register.family
  spurious : ∀ r ∈ b.reads.map Register.family, r ∈ implied i ∨ Spurious i r

lemma IsImplicit.of_eq {i : Instruction} {b : Access}
    (h : implied i = b.reads.map Register.family) : IsImplicit i b :=
  ⟨fun _ _ hr => h ▸ hr, fun _ hr => .inl (h ▸ hr)⟩

end Operation

namespace Access

/-- The accumulators of a multiplication or division of a width. -/
lemma exists_accumulators {ops : List Operand} {w : Width} (hbits : factorBits ops = .ok w.bits)
    (divides : Bool) :
    ∃ b, accumulators divides ops = .ok b ∧ b.reads.map Register.family =
      if divides && w != .w8 then [.rax, .rdx] else [.rax] := by
  rw [accumulators, hbits]
  cases w <;> cases divides <;> exact ⟨_, rfl, rfl⟩

/-- The width of a multiplication or division is that of its form, or 64 bits where no width is
named. -/
lemma exists_factorBits {o : Operand} {w : Width} (h : (OperandType.gpOrMem w).takes o = true) :
    (factorBits [o] = .ok w.bits ∧ o.namedBits? = some w.bits) ∨
      (factorBits [o] = .ok Width.w64.bits ∧ o.namedBits?.getD 0 = 0) := by
  cases o with
  | reg r =>
    have hr : (r.isGeneral && r.bits == w.bits) = true := h
    rw [Bool.and_eq_true, beq_iff_eq] at hr
    exact .inl ⟨by rw [factorBits, hr.2], by rw [Operand.namedBits?, hr.2]⟩
  | mem a =>
    have ha : memSuits w.bits a.bits = true := h
    rw [factorBits, Operand.namedBits?]
    cases hbits : a.bits with
    | none => exact .inr ⟨rfl, rfl⟩
    | some n =>
      rw [hbits, memSuits, Bool.or_eq_true, beq_iff_eq, beq_iff_eq] at ha
      rcases ha with rfl | rfl
      · exact .inr ⟨rfl, rfl⟩
      · refine .inl ⟨?_, rfl⟩
        cases w <;> rfl
  | _ => cases h

end Access

section HasForm

variable {i : Instruction}

/-- What a multiplication or division of accumulators scales them by: one operand, a register or a
datum. -/
lemma Instruction.HasForm.exists_factor (h : i.HasForm) (hscales : i.scalesAccumulators = true) :
    ∃ o w, i.operands = [o] ∧ (OperandType.gpOrMem w).takes o = true := by
  obtain ⟨entry, -, -, hentry, f, hf, -, htakes⟩ := h.exists_form
  rw [Instruction.scalesAccumulators, Bool.or_eq_true, Bool.and_eq_true, beq_iff_eq,
    beq_iff_eq] at hscales
  have hname : i.mnemonic ∈ ["mul", "div", "idiv", "imul"] := by
    rcases hscales with hfactor | ⟨himul, -⟩
    · exact List.mem_append_left ["imul"] (List.contains_iff_mem.mp hfactor)
    · rw [himul]
      decide
  obtain ⟨forms, hforms, htypes⟩ := forms_of_factor _ hname
  obtain rfl := Option.some.inj (hforms.symm.trans hentry)
  obtain ⟨w, -, htypes⟩ : ∃ w ∈ Width.all, f.types = [.gpOrMem w] := by
    refine (htypes f hf).resolve_right ?_
    rintro ⟨himul, hlen⟩
    rcases hscales with hfactor | ⟨-, hone⟩
    · rw [himul] at hfactor
      cases hfactor
    · exact hlen (htakes.length_eq.trans hone)
  rw [htypes, List.forall₂_cons_left_iff] at htakes
  obtain ⟨o, rest, htake, hrest, hops⟩ := htakes
  rw [List.forall₂_nil_left_iff.mp hrest] at hops
  exact ⟨o, w, hops, htake⟩

/-- An instruction with a form moves or stores strings if it begins like it and has no operands. -/
lemma Instruction.HasForm.strings_eq (h : i.HasForm) :
    (Text.startsWith "movs" i.mnemonic && i.operands.isEmpty) =
        Operation.stringMoves.contains i.mnemonic ∧
      (Text.startsWith "stos" i.mnemonic && i.operands.isEmpty) =
        Operation.stringStores.contains i.mnemonic := by
  obtain ⟨entry, hentry, hname, hlookup, f, hf, -, htakes⟩ := h.exists_form
  cases hempty : i.operands.isEmpty with
  | true =>
    rw [List.isEmpty_iff] at hempty
    rw [hempty, List.forall₂_nil_right_iff] at htakes
    rw [Bool.and_true, Bool.and_true, ← hname]
    exact (Table.isMarked entry hentry).bare.resolve_left fun hbare => hbare f hf htakes
  | false =>
    have hother :
        (Operation.stringMoves ++ Operation.stringStores).contains i.mnemonic = false := by
      refine Bool.eq_false_iff.mpr fun hstring => ?_
      obtain ⟨forms, hforms, htypes⟩ := forms_of_string _ (List.contains_iff_mem.mp hstring)
      obtain rfl := Option.some.inj (hforms.symm.trans hlookup)
      rw [htypes f hf, List.forall₂_nil_left_iff] at htakes
      rw [htakes] at hempty
      cases hempty
    rw [List.contains_append, Bool.or_eq_false_iff] at hother
    rw [Bool.and_false, Bool.and_false, hother.1, hother.2]
    exact ⟨rfl, rfl⟩

/-- The reads of a move or store of strings, without the counter. -/
lemma Instruction.HasForm.exists_strings (h : i.HasForm) :
    ∃ b, Access.strings i = .ok b ∧ b.reads.map Register.family =
      if Operation.stringMoves.contains i.mnemonic then [.rsi, .rdi]
      else if Operation.stringStores.contains i.mnemonic then [.rdi, .rax]
      else [] := by
  obtain ⟨hmoves, hstores⟩ := h.strings_eq
  rw [Access.strings, hmoves, hstores]
  split_ifs with hmove hstore
  · exact ⟨_, rfl, rfl⟩
  · have hbits : ∀ m ∈ Operation.stringStores, ∃ w : Width, Access.storeBits m = .ok w.bits := by
      simp only [Operation.stringStores, List.forall_mem_cons, List.not_mem_nil, false_implies,
        implies_true, and_true]
      exact ⟨⟨.w8, rfl⟩, ⟨.w32, rfl⟩, ⟨.w64, rfl⟩⟩
    obtain ⟨w, hw⟩ := hbits _ (List.contains_iff_mem.mp hstore)
    rw [hw]
    cases w <;> exact ⟨_, rfl, rfl⟩
  · exact ⟨_, rfl, rfl⟩

/-- The reads of a counter. -/
lemma Access.reads_counter (i : Instruction) :
    (Access.counter i).reads = if Operation.repeats i then [.rcx] else [] := by
  rw [Access.counter, Operation.repeats]
  cases i.mark with
  | none => rfl
  | some mark => cases hrep : Text.startsWith "rep" mark <;> simp [hrep]

/-- What an instruction takes in when it extends the accumulator. -/
lemma Operation.implied_of_extension
    (h : ["cqo", "cdq", "cdqe", "cwde"].contains i.mnemonic = true) :
    Operation.implied i = [.rax] := by
  have hname : ["cqo", "cdq", "cdqe", "cwde", "mul"].contains i.mnemonic = true :=
    List.contains_iff_mem.mpr (List.mem_append_left ["mul"] (List.contains_iff_mem.mp h))
  rw [Operation.implied, hname, Bool.true_or, if_pos rfl]

/-- What an instruction takes in when it multiplies or divides accumulators. -/
lemma Operation.implied_of_scales (hscales : i.scalesAccumulators = true) :
    Operation.implied i =
      if ["div", "idiv"].contains i.mnemonic && !Operation.isByte i then [.rax, .rdx]
      else [.rax] := by
  rw [Instruction.scalesAccumulators, Bool.or_eq_true, Bool.and_eq_true, beq_iff_eq,
    beq_iff_eq] at hscales
  rcases hscales with hfactor | ⟨himul, hone⟩
  · have hname : i.mnemonic = "mul" ∨ i.mnemonic = "div" ∨ i.mnemonic = "idiv" := by
      simpa using hfactor
    rcases hname with hname | hname | hname <;>
      cases hbyte : Operation.isByte i <;> simp [Operation.implied, hname, hbyte]
  · simp [Operation.implied, himul, hone]

/-- The accumulators of a multiplication or division with a form are told. -/
lemma Instruction.HasForm.exists_accumulators (h : i.HasForm)
    (hscales : i.scalesAccumulators = true) {divides : Bool}
    (hdivides : ["div", "idiv"].contains i.mnemonic = divides) :
    ∃ b, Access.accumulators divides i.operands = .ok b ∧ Operation.IsImplicit i b := by
  obtain ⟨o, w, hops, htake⟩ := h.exists_factor hscales
  have himplied := Operation.implied_of_scales hscales
  rw [hdivides] at himplied
  rcases Access.exists_factorBits htake with ⟨hbits, hnamed⟩ | ⟨hbits, hnamed⟩
  · obtain ⟨b, hb, hreads⟩ := Access.exists_accumulators hbits divides
    have hbyte : Operation.isByte i = (w == .w8) := by
      rw [Operation.isByte, hops, List.head?_cons, Option.bind_some, hnamed]
      cases w <;> rfl
    refine ⟨b, hops ▸ hb, .of_eq ?_⟩
    rw [himplied, hreads, hbyte]
    rfl
  · obtain ⟨b, hb, hreads⟩ := Access.exists_accumulators hbits divides
    have hbyte : Operation.isByte i = true := by
      rw [Operation.isByte, hops, List.head?_cons, Option.bind_some, hnamed]
      rfl
    rw [hbyte, Bool.not_true, Bool.and_false, if_neg Bool.false_ne_true] at himplied
    refine ⟨b, hops ▸ hb, fun _ r hr => ?_, fun r hr => ?_⟩
    · rw [himplied, List.mem_singleton] at hr
      rw [hreads, hr]
      split_ifs <;> exact List.mem_cons_self
    · rw [himplied]
      rw [hreads] at hr
      split_ifs at hr with hupper
      · rw [Bool.and_eq_true] at hupper
        rcases List.mem_cons.mp hr with rfl | hr
        · exact .inl List.mem_cons_self
        · rw [List.mem_singleton] at hr
          exact .inr (.upper (hdivides.trans hupper.1) hbyte (by rw [hr]; rfl))
      · exact .inl hr

/-- The registers that moves and stores of strings read, and the counter of a mark. -/
lemma isImplicit_of_strings {b : Access}
    (himplied : Operation.implied i =
      if ["push", "pop"].contains i.mnemonic then [.rsp] else Operation.strings i)
    (hreads : b.reads.map Register.family =
      if Operation.stringMoves.contains i.mnemonic then [.rsi, .rdi]
      else if Operation.stringStores.contains i.mnemonic then [.rdi, .rax]
      else []) : Operation.IsImplicit i (b.append (Access.counter i)) := by
  have hcounter : (Access.counter i).reads.map Register.family =
      if Operation.repeats i then [.rcx] else [] := by
    rw [Access.reads_counter]
    split_ifs <;> rfl
  have happend : (b.append (Access.counter i)).reads.map Register.family =
      b.reads.map Register.family ++ if Operation.repeats i then [.rcx] else [] := by
    rw [Access.append, List.map_append, hcounter]
  have hmoves : ∀ m ∈ Operation.stringMoves ++ Operation.stringStores,
      ["push", "pop"].contains m = false := by decide
  rw [Operation.strings] at himplied
  by_cases hmove : Operation.stringMoves.contains i.mnemonic = true
  · have hname := hmoves _ (List.mem_append_left _ (List.contains_iff_mem.mp hmove))
    rw [hname, if_neg Bool.false_ne_true, if_pos hmove] at himplied
    exact .of_eq (by rw [himplied, happend, hreads, if_pos hmove])
  by_cases hstore : Operation.stringStores.contains i.mnemonic = true
  · have hname := hmoves _ (List.mem_append_right _ (List.contains_iff_mem.mp hstore))
    rw [hname, if_neg Bool.false_ne_true, if_neg hmove, if_pos hstore] at himplied
    exact .of_eq (by rw [himplied, happend, hreads, if_neg hmove, if_pos hstore])
  -- Neither moves nor stores strings: a counter is of no use.
  rw [if_neg hmove, if_neg hstore] at hreads himplied
  rw [hreads, List.nil_append] at happend
  refine ⟨fun hname r hr => ?_, fun r hr => .inr ?_⟩
  · rw [himplied, hname, if_neg Bool.false_ne_true] at hr
    cases hr
  · rw [happend] at hr
    split_ifs at hr with hmark
    · rw [List.mem_singleton] at hr
      refine .counter ?_ hmark (by rw [hr]; rfl)
      rw [List.contains_append, Bool.or_eq_false_iff]
      exact ⟨Bool.eq_false_iff.mpr hmove, Bool.eq_false_iff.mpr hstore⟩
    · cases hr

/-- The registers that an instruction with a form reads without naming them are told. -/
lemma Instruction.HasForm.exists_implicit (h : i.HasForm) :
    ∃ b, Access.implicit i = .ok b ∧ Operation.IsImplicit i b := by
  unfold Access.implicit
  dsimp only
  split
  · rename_i hname
    exact ⟨_, rfl, .of_eq (Operation.implied_of_extension (by rw [hname]; rfl))⟩
  · rename_i hname
    exact ⟨_, rfl, .of_eq (Operation.implied_of_extension (by rw [hname]; rfl))⟩
  · rename_i hname
    exact ⟨_, rfl, .of_eq (Operation.implied_of_extension (by rw [hname]; rfl))⟩
  · rename_i hname
    exact ⟨_, rfl, .of_eq (Operation.implied_of_extension (by rw [hname]; rfl))⟩
  · rename_i hname
    exact h.exists_accumulators (by rw [Instruction.scalesAccumulators, hname]; rfl)
      (by rw [hname]; rfl)
  · rename_i hname
    exact h.exists_accumulators (by rw [Instruction.scalesAccumulators, hname]; rfl)
      (by rw [hname]; rfl)
  · rename_i hname
    exact h.exists_accumulators (by rw [Instruction.scalesAccumulators, hname]; rfl)
      (by rw [hname]; rfl)
  · rename_i hcqo hcdq hcdqe hcwde hmul hdiv hidiv
    split_ifs with himul
    · have hscales : i.scalesAccumulators = true := by
        rw [Instruction.scalesAccumulators, himul, Bool.or_true]
      rw [Bool.and_eq_true, beq_iff_eq] at himul
      exact h.exists_accumulators hscales (by rw [himul.1]; rfl)
    · obtain ⟨b, hb, hreads⟩ := h.exists_strings
      refine ⟨_, by rw [hb]; rfl, isImplicit_of_strings ?_ hreads⟩
      have hfactor : (["cqo", "cdq", "cdqe", "cwde", "mul"].contains i.mnemonic ||
          (i.mnemonic == "imul" && i.operands.length == 1)) = false := by
        rw [Bool.eq_false_iff.mpr himul, Bool.or_false]
        simpa using ⟨hcqo, hcdq, hcdqe, hcwde, hmul⟩
      have hdivides : ["div", "idiv"].contains i.mnemonic = false := by simpa using ⟨hdiv, hidiv⟩
      rw [Operation.implied, hfactor, hdivides, if_neg Bool.false_ne_true,
        if_neg Bool.false_ne_true]

/-- An instruction that sets a register to zero does not depend on its sources. -/
lemma Operation.cancels_of_zeroed? {o : Operand} (h : Access.zeroed? i = some o) :
    Operation.cancels i = true := by
  have hall : ∀ m ∈ Access.zeroing, Operation.cancelling.contains m = true := by decide
  have hname := (Access.zeroed?_eq_some h).1
  rw [Operation.cancels, hall _ (List.contains_iff_mem.mp hname), Bool.true_and]
  rw [Access.zeroed?, if_pos hname] at h
  split at h
  · rename_i hreverse
    rw [hreverse]
    dsimp only
    split_ifs at h with hab
    rw [hab, beq_self_eq_true]
  · cases h

/-- The reads of an instruction that sets a register to zero are those of its addresses. -/
lemma Instruction.HasForm.exists_access_of_zeroed (h : i.HasForm) {o : Operand}
    (ho : Access.zeroed? i = some o) :
    ∃ a, Access.ofInstruction i = .ok a ∧ a.reads = Access.addressReads i := by
  obtain ⟨hcall, hjump, hret⟩ := h.not_transfer
  obtain ⟨r, rfl⟩ : ∃ r, o = .reg r := by
    obtain ⟨hname, hreg | ⟨rest, r, hops⟩⟩ := Access.zeroed?_eq_some ho
    · exact hreg
    · obtain ⟨entry, hentry, hentryName, -, f, hf, -, htakes⟩ := h.exists_form
      have hlen : 3 ≤ f.types.length := by
        rw [htakes.length_eq, hops]
        simp only [List.cons_append, List.length_cons, List.length_append]
        omega
      have hwidth : f.types.head?.any (·.namesWidth) = true := by
        refine (Table.isMarked entry hentry).zeroing.elim (fun hall => hall f hf hlen)
          fun hother => ?_
        rw [hentryName, hname] at hother
        cases hother
      rw [hops, List.cons_append, List.forall₂_cons_right_iff] at htakes
      obtain ⟨t, ts, htake, -, htypes⟩ := htakes
      rw [htypes, List.head?_cons, Option.any_some] at hwidth
      cases t <;> cases o <;> simp_all [OperandType.takes, OperandType.namesWidth]
  rw [Access.ofInstruction, hcall, hjump, hret, ho]
  exact ⟨_, rfl, rfl⟩

/-- The families that an instruction reads, if it does not set a register to zero: those of its
addresses, of the operands that its form marks as read, and those that its name implies. -/
lemma Instruction.HasForm.exists_access (h : i.HasForm) (hzero : Access.zeroed? i = none) :
    ∃ entry ∈ Table.entries, entry.mnemonic = i.mnemonic ∧ ∃ f ∈ entry.forms,
      f.types.length = i.operands.length ∧ ∃ a b, Access.ofInstruction i = .ok a ∧
        Operation.IsImplicit i b ∧ ∀ r, (∃ q ∈ a.reads, q.family = r) ↔
          (∃ q ∈ Access.addressReads i, q.family = r) ∨
            (∃ q, .reg q ∈ f.readOperands i.operands ∧ q.family = r) ∨
            ∃ q ∈ b.reads, q.family = r := by
  obtain ⟨entry, hentry, hname, hlookup, f, hf, hselect, htakes⟩ := h.exists_form
  obtain ⟨hcall, hjump, hret⟩ := h.not_transfer
  obtain ⟨b, hb, himplicit⟩ := h.exists_implicit
  have hroles : Access.roles i = .ok f.roles := by
    rw [Access.roles, hlookup]
    dsimp only
    rw [hselect]
    rfl
  have haccess : Access.ofInstruction i = .ok (Access.append ((i.operands.zip f.roles).foldl
      (fun acc p => Access.append acc (Access.ofOperand i.mnemonic p.1 p.2))
      { reads := Access.addressReads i }) b) := by
    rw [Access.ofInstruction, hcall, hjump, hret, hzero, hroles, hb]
    rfl
  refine ⟨entry, hentry, hname, f, hf, htakes.length_eq, _, b, haccess, himplicit, fun r => ?_⟩
  rw [← List.mem_map, Access.append, Access.reads_foldl_append, List.map_append, List.map_append,
    Form.IsListed.families_reads ⟨entry, hentry, hf⟩ htakes.length_eq, List.mem_append,
    List.mem_append, Access.mem_families, List.mem_map, List.mem_map, or_assoc]

/-- The first operand of a form of the table is read or replaced, or its instruction is marked as a
move. -/
lemma readsHead_or {entry : Table.Entry} (hentry : entry ∈ Table.entries) {f : Form}
    (hf : f ∈ entry.forms) : f.readsHead = true ∨
      Operation.replacesByName entry.mnemonic = true ∨
      Operation.markedAsMoves.contains entry.mnemonic = true := by
  refine (Table.isMarked entry hentry).head.imp (fun ⟨hall, _⟩ => ?_) And.right
  rw [Form.readsHead, Option.all_eq_true]
  exact hall f hf

/-- The operands that are taken in are read, but for a first one of an instruction that is marked as
a move. -/
lemma Operation.mem_readOperands_of_taken {f : Form} (hf : f.readsHead = true ∨
      Operation.replacesByName i.mnemonic = true ∨
      Operation.markedAsMoves.contains i.mnemonic = true) {o : Operand}
    (ho : o ∈ Operation.taken i) :
    o ∈ f.readOperands i.operands ∨
      (Operation.markedAsMoves.contains i.mnemonic = true ∧ i.operands.head? = some o) := by
  have hdrop : o ∈ i.operands.drop 1 → o ∈ f.readOperands i.operands := by
    intro ho
    rw [Form.readOperands]
    split_ifs
    · exact List.mem_of_mem_drop ho
    · exact ho
  rw [Operation.taken] at ho
  split_ifs at ho with hcancels hchooses hreplaces
  · cases ho
  · exact .inl (hdrop (List.mem_of_mem_take ho))
  · exact .inl (hdrop ho)
  · rcases hf with hread | hname | hmoves
    · exact .inl (by rwa [Form.readOperands, if_pos hread])
    · rw [Operation.replaces, hname, Bool.true_or, Bool.true_or] at hreplaces
      exact absurd rfl hreplaces
    · cases hops : i.operands with
      | nil =>
        rw [hops] at ho
        cases ho
      | cons first rest =>
        rw [hops] at ho
        rcases List.mem_cons.mp ho with rfl | hrest
        · exact .inr ⟨hmoves, rfl⟩
        · rw [← hops]
          exact .inl (hdrop (by rw [hops]; exact hrest))

end HasForm

/-! ## The inputs -/

namespace Operation

/-- Why a register that an instruction takes in is not among its reads. -/
inductive Overlooked (i : Instruction) (r : Register) : Prop
  /-- The pointer of an instruction that pushes or pops. -/
  | pointer (hname : ["push", "pop"].contains i.mnemonic = true) (hr : r.family = .rsp)
  /-- The first operand of an instruction that the table marks as a move. -/
  | first {q : Register} (hname : markedAsMoves.contains i.mnemonic = true)
    (hops : i.operands.head? = some (.reg q)) (hr : q.family = r.family)

/-- The comparisons without VEX, which set flags and have no destination. -/
def comparisons : List String :=
  ["cmp", "test", "bt", "ucomiss", "ucomisd", "comiss", "comisd"]

end Operation

section Uses

variable {i : Instruction}

/-- Instructions that set a register to zero take in no register without naming it. -/
lemma Operation.implied_of_zeroing (h : Access.zeroing.contains i.mnemonic = true) :
    Operation.implied i = [] := by
  have hall : ∀ m ∈ Access.zeroing, ["cqo", "cdq", "cdqe", "cwde", "mul"].contains m = false ∧
      (m == "imul") = false ∧ ["div", "idiv"].contains m = false ∧
      ["push", "pop"].contains m = false ∧ Operation.stringMoves.contains m = false ∧
      Operation.stringStores.contains m = false := by
    decide
  obtain ⟨hfactor, himul, hdivides, hmoves, hstring, hstore⟩ :=
    hall _ (List.contains_iff_mem.mp h)
  rw [Operation.implied, hfactor, himul, hdivides, hmoves, Operation.strings, hstring, hstore]
  rfl

/-- Instructions that push or pop take in the stack pointer without naming it. -/
lemma Operation.implied_of_pointer (h : ["push", "pop"].contains i.mnemonic = true) :
    Operation.implied i = [.rsp] := by
  have hname : i.mnemonic = "push" ∨ i.mnemonic = "pop" := by simpa using h
  rcases hname with hname | hname <;> simp [Operation.implied, hname]

/-- An instruction that sets a register to zero takes in nothing but its addresses. -/
lemma Operation.uses_of_zeroed {o : Operand} (ho : Access.zeroed? i = some o) {r : Register}
    (hr : Operation.Uses i r) : ∃ q ∈ Access.addressReads i, q.family = r.family := by
  obtain ⟨q, hq, hfamily⟩ := hr
  rw [Operation.inputs, Operation.taken, if_pos (Operation.cancels_of_zeroed? ho),
    Operation.implied_of_zeroing (Access.zeroed?_eq_some ho).1, List.filterMap_nil,
    List.append_nil, List.append_nil] at hq
  split_ifs at hq with hnop
  · cases hq
  · exact ⟨q, hq, hfamily⟩

/-- What an instruction takes in is among the registers of its addresses, the operands that are
taken in, and those that are not named. -/
lemma Operation.uses_cases {r : Register} (hr : Operation.Uses i r) :
    (∃ q ∈ Access.addressReads i, q.family = r.family) ∨
      (∃ q, .reg q ∈ Operation.taken i ∧ q.family = r.family) ∨
      ∃ q ∈ Operation.implied i, q.family = r.family := by
  obtain ⟨q, hq, hfamily⟩ := hr
  rw [Operation.inputs] at hq
  split_ifs at hq with hnop
  · cases hq
  · rw [List.mem_append, List.mem_append, List.mem_filterMap] at hq
    rcases hq with (haddress | ⟨o, ho, hregister⟩) | himplied
    · exact .inl ⟨q, haddress, hfamily⟩
    · cases o with
      | reg q' => exact .inr (.inl ⟨q, Option.some.inj hregister ▸ ho, hfamily⟩)
      | _ => cases hregister
    · exact .inr (.inr ⟨q, himplied, hfamily⟩)

end Uses

/-- The reads of an instruction with a form are told, and every register that it takes in has its
family among them, but for the pointer of instructions that push or pop and the first operand of
those that the table marks as moves. Comparisons without VEX read all registers in their
operands. -/
theorem Instruction.HasForm.reads_of_uses {i : Instruction} (h : i.HasForm) :
    ∃ a, Access.ofInstruction i = .ok a ∧
      (∀ r, Operation.Uses i r → (∃ q ∈ a.reads, q.family = r.family) ∨ Operation.Overlooked i r) ∧
      (Operation.comparisons.contains i.mnemonic = true →
        ∀ o ∈ i.operands, ∀ r ∈ o.registers, ∃ q ∈ a.reads, q.family = r.family) := by
  have hmarks : ∀ m ∈ Operation.comparisons, Operation.replacesByName m = false ∧
      Operation.markedAsMoves.contains m = false ∧ Access.zeroing.contains m = false := by
    decide +kernel
  cases hzero : Access.zeroed? i with
  | some o =>
    obtain ⟨a, ha, hreads⟩ := h.exists_access_of_zeroed hzero
    refine ⟨a, ha, fun r hr => .inl (hreads ▸ Operation.uses_of_zeroed hzero hr), fun hname => ?_⟩
    obtain ⟨-, -, hother⟩ := hmarks _ (List.contains_iff_mem.mp hname)
    exact nomatch hother.symm.trans (Access.zeroed?_eq_some hzero).1
  | none =>
    obtain ⟨entry, hentry, hentryName, f, hf, -, a, b, ha, himplicit, hmem⟩ := h.exists_access hzero
    have hhead := readsHead_or hentry hf
    rw [hentryName] at hhead
    refine ⟨a, ha, fun r hr => ?_, fun hname o ho r hr => (hmem r.family).mpr ?_⟩
    · rcases Operation.uses_cases hr with haddress | ⟨q, hq, hfamily⟩ | ⟨q, hq, hfamily⟩
      · exact .inl ((hmem r.family).mpr (.inl haddress))
      · rcases Operation.mem_readOperands_of_taken hhead hq with hread | ⟨hmoves, hops⟩
        · exact .inl ((hmem r.family).mpr (.inr (.inl ⟨q, hread, hfamily⟩)))
        · exact .inr (.first hmoves hops hfamily)
      · cases hpointer : ["push", "pop"].contains i.mnemonic with
        | true =>
          rw [Operation.implied_of_pointer hpointer, List.mem_singleton] at hq
          exact .inr (.pointer hpointer (by rw [← hfamily, hq]; rfl))
        | false =>
          obtain ⟨q', hq', rfl⟩ := List.mem_map.mp (himplicit.reads hpointer q hq)
          rw [Register.family_family] at hfamily
          exact .inl ((hmem r.family).mpr (.inr (.inr ⟨q', hq', hfamily⟩)))
    · obtain ⟨hreplaces, hmoves, -⟩ := hmarks _ (List.contains_iff_mem.mp hname)
      have hall : f.readsHead = true := by
        rwa [hreplaces, hmoves, or_iff_left Bool.false_ne_true, or_iff_left Bool.false_ne_true]
          at hhead
      cases o with
      | reg q =>
        obtain rfl := List.mem_singleton.mp hr
        exact .inr (.inl ⟨r, by rwa [Form.readOperands, if_pos hall], rfl⟩)
      | mem address =>
        refine .inl ⟨r, List.mem_flatMap.mpr ⟨address, ?_, hr⟩, rfl⟩
        exact List.mem_filterMap.mpr ⟨_, ho, rfl⟩
      | _ => cases hr

/-- A comparison of an argument with a datum that another one points to. -/
theorem Instruction.HasForm.reads_of_uses_of_compare :
    let i : Instruction :=
      { mnemonic := "cmp", operands := [.reg .rdi, .mem { base := some .rsi, bits := some 64 }] }
    i.HasForm ∧ Operation.Uses i .rdi ∧ ∃ a, Access.ofInstruction i = .ok a ∧
      (∀ r, Operation.Uses i r → (∃ q ∈ a.reads, q.family = r.family) ∨ Operation.Overlooked i r) ∧
      (Operation.comparisons.contains i.mnemonic = true →
        ∀ o ∈ i.operands, ∀ r ∈ o.registers, ∃ q ∈ a.reads, q.family = r.family) := by
  intro i
  have h : i.HasForm := Instruction.hasForm_of_any (by decide +kernel)
  exact ⟨h, by decide +kernel, h.reads_of_uses⟩

/-- A comparison with VEX takes in its first operand, which is an argument, and is said to write it
only. -/
theorem Instruction.HasForm.not_reads_of_uses :
    let i : Instruction := { mnemonic := "vucomisd", operands := [.reg (.xmm 1), .reg (.xmm 0)] }
    i.HasForm ∧ Operation.Uses i (.xmm 1) ∧ ∃ a, Access.ofInstruction i = .ok a ∧
      a.reads = [.xmm 0] ∧ a.writes = [.xmm 1] := by
  intro i
  have h : i.HasForm := Instruction.hasForm_of_any (by decide +kernel)
  exact ⟨h, by decide +kernel, exists_ok_of_any (by decide +kernel)⟩

end AsmBridge
