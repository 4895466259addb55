import AsmBridge.Proofs.Abi.Inputs

/-!
# Arguments that are counted

A register is counted as an argument if the first instruction that touches its family reads it. For
an instruction with a form this means that its operation takes the register in, but for the cases
that `Operation.Overcounted` lists: results that do not depend on a doubled register, a destination
of a multiplication, masks and counters without effect, and the registers that are read for every
call. The number of arguments of a class is then that of its last register that is read first.
-/

namespace AsmBridge

namespace Instruction

/-- The instruction is a call, a jump or a return. -/
def transfers (i : Instruction) : Bool := i.isCall || i.isJump || i.isRet

end Instruction

namespace Operation

/-- Why a register is among the reads of an instruction that does not take it in. -/
inductive Overcounted (i : Instruction) (r : Register) : Prop
  /-- It stands for both sources of an operation that does not depend on it. -/
  | cancelled {q : Register} {rest : List Operand}
    (hname : Access.zeroing.contains i.mnemonic = false)
    (hcancels : cancels i = true) (hops : i.operands = rest ++ [.reg q, .reg q])
    (hr : q.family = r.family)
  /-- It is the mask of a choice from one register. -/
  | mask {o : Operand} {q m : Register} (hname : choosing.contains i.mnemonic = true)
    (hops : i.operands = [o, .reg q, .reg q, .reg m]) (hr : m.family = r.family)
  /-- It is replaced by the product of two other operands. -/
  | product {q : Register} {o o' : Operand} (hname : i.mnemonic = "imul")
    (hops : i.operands = [.reg q, o, o']) (hr : q.family = r.family)
  /-- Nothing is done. -/
  | idle {q : Register} (hname : i.mnemonic = "nop") (hq : q ∈ i.registers)
    (hr : q.family = r.family)
  /-- It is not named and of no use. -/
  | spurious (h : Spurious i r)
  /-- It is one of the registers that are read for every call. -/
  | call {q : Register} (hcall : i.isCall = true) (hq : q ∈ Register.integerArguments.take 3)
    (hr : q.family = r.family)
  /-- The instruction has no form, and all its operands are taken to be read. -/
  | unknown (hform : ¬ i.HasForm) (htransfers : i.transfers = false)

end Operation

/-! ## Reads of an instruction -/

section Reads

variable {i : Instruction}

/-- A register of an operand occurs in the instruction. -/
lemma Instruction.mem_registers {q : Register} (h : .reg q ∈ i.operands) : q ∈ i.registers :=
  List.mem_flatMap.mpr ⟨_, h, List.mem_singleton_self q⟩

/-- A register of an address occurs in the instruction. -/
lemma Instruction.mem_registers_of_address {q : Register} (h : q ∈ Access.addressReads i) :
    q ∈ i.registers := by
  obtain ⟨a, ha, hq⟩ := List.mem_flatMap.mp h
  obtain ⟨o, ho, hoa⟩ := List.mem_filterMap.mp ha
  refine List.mem_flatMap.mpr ⟨o, ho, ?_⟩
  cases o with
  | mem a' => exact Option.some.inj hoa ▸ hq
  | _ => cases hoa

/-- An instruction takes in its addresses, unless it does nothing. -/
lemma Operation.uses_of_address {q r : Register} (hq : q ∈ Access.addressReads i)
    (hr : q.family = r.family) : Operation.Uses i r ∨ Operation.Overcounted i r := by
  by_cases hnop : i.mnemonic = "nop"
  · exact .inr (.idle hnop (Instruction.mem_registers_of_address hq) hr)
  · refine .inl ⟨q, ?_, hr⟩
    rw [Operation.inputs, if_neg (by simpa using hnop)]
    exact List.mem_append_left _ (List.mem_append_left _ hq)

/-- An instruction that is not idle takes in the operands that are taken in. -/
lemma Operation.uses_of_taken (hnop : i.mnemonic ≠ "nop") {q r : Register}
    (hq : .reg q ∈ Operation.taken i) (hr : q.family = r.family) : Operation.Uses i r := by
  refine ⟨q, ?_, hr⟩
  rw [Operation.inputs, if_neg (by simpa using hnop)]
  exact List.mem_append_left _ (List.mem_append_right _ (List.mem_filterMap.mpr ⟨_, hq, rfl⟩))

/-- An instruction that does nothing takes in nothing without naming it. -/
lemma Operation.implied_of_nop (h : i.mnemonic = "nop") : Operation.implied i = [] := by
  rw [Operation.implied, Operation.strings, h]
  rfl

/-- A family is spurious like its registers. -/
lemma Operation.Spurious.of_family {r : Register} (h : Operation.Spurious i r.family) :
    Operation.Spurious i r := by
  cases h with
  | counter hname hmark hr => exact .counter hname hmark (r.family_family ▸ hr)
  | upper hname hbyte hr => exact .upper hname hbyte (r.family_family ▸ hr)

/-- What an instruction does not depend on stands twice at the end of its operands. -/
lemma Operation.exists_of_cancels (h : Operation.cancels i = true) :
    Operation.cancelling.contains i.mnemonic = true ∧
      ∃ rest q, i.operands = rest ++ [.reg q, .reg q] := by
  rw [Operation.cancels, Bool.and_eq_true] at h
  refine ⟨h.1, ?_⟩
  have hsources := h.2
  split at hsources
  · rename_i a b rest hreverse
    rw [beq_iff_eq] at hsources
    refine ⟨rest.reverse, b, ?_⟩
    rw [← List.reverse_reverse i.operands, hreverse, hsources]
    simp
  · cases hsources

/-- Where the mask does not matter, the sources of a choice are one register. -/
lemma Operation.exists_of_choosesFromOne (h : Operation.choosesFromOne i = true) :
    Operation.choosing.contains i.mnemonic = true ∧
      ∃ o q o', i.operands = [o, .reg q, .reg q, o'] := by
  rw [Operation.choosesFromOne, Bool.and_eq_true] at h
  refine ⟨h.1, ?_⟩
  have hsources := h.2
  split at hsources
  · rename_i o a b o' hops
    rw [beq_iff_eq] at hsources
    exact ⟨o, b, o', hsources ▸ hops⟩
  · cases hsources

/-- An instruction of two equal registers that sets registers to zero sets its first operand to
zero. -/
lemma Access.zeroed?_isSome {rest : List Operand} {q : Register}
    (hname : Access.zeroing.contains i.mnemonic = true)
    (hops : i.operands = rest ++ [.reg q, .reg q]) : (Access.zeroed? i).isSome = true := by
  have hreverse : i.operands.reverse = .reg q :: .reg q :: rest.reverse := by
    rw [hops]
    simp
  rw [Access.zeroed?, if_pos hname, hreverse, hops]
  cases rest <;> simp

end Reads

/-! ## Operands that are read -/

section Operands

variable {i : Instruction} {entry : Table.Entry} {f : Form} {q r : Register}

/-- The operands that are read are operands. -/
lemma Form.mem_of_mem_readOperands {ops : List Operand} {o : Operand}
    (h : o ∈ f.readOperands ops) : o ∈ ops := by
  rw [Form.readOperands] at h
  split_ifs at h
  · exact h
  · exact List.mem_of_mem_drop h

/-- Where the sources are equal, no other operand is read. -/
lemma eq_of_mem_readOperands (hentry : entry ∈ Table.entries)
    (hname : Operation.cancelling.contains entry.mnemonic = true) (hf : f ∈ entry.forms)
    {ops rest : List Operand} (hlen : f.types.length = ops.length)
    (hops : ops = rest ++ [.reg q, .reg q]) {o : Operand} (ho : o ∈ f.readOperands ops) :
    o = .reg q := by
  have htypes := ((Table.isMarked entry hentry).cancelling.resolve_right
    (by rw [hname]; decide)) f hf
  rw [hlen, hops, List.length_append, List.length_cons, List.length_singleton,
    ← Form.readsHead] at htypes
  rw [Form.readOperands, hops] at ho
  cases rest with
  | nil => split_ifs at ho <;> simpa using ho
  | cons first rest =>
    rw [List.length_cons] at htypes
    split_ifs at htypes ho with hread
    · omega
    · rw [List.eq_nil_of_length_eq_zero (l := rest) (by omega)] at ho
      simpa using ho

/-- The first operand of a form that reads it is not one that is replaced by name. -/
lemma not_replaces_of_readsHead (hentry : entry ∈ Table.entries) (hf : f ∈ entry.forms)
    (hread : f.readsHead = true) (hlen : 0 < f.types.length) :
    Operation.replacesByName entry.mnemonic = false ∧
      ["movss", "movsd"].contains entry.mnemonic = false := by
  refine (Table.isMarked entry hentry).head.elim And.right fun ⟨hall, _⟩ => ?_
  rw [← (Form.IsListed.isReadable ⟨entry, hentry, hf⟩).length_slots] at hlen
  obtain ⟨s, ss, hss⟩ := List.exists_cons_of_length_pos hlen
  have hs := hall f hf s (by rw [hss, List.head?_cons]; rfl)
  rw [Form.readsHead, hss, List.head?_cons, Option.all_some, hs] at hread
  cases hread

/-- Of a choice by a mask the first operand is not read. -/
lemma readOperands_of_choosing (hentry : entry ∈ Table.entries)
    (hname : Operation.choosing.contains entry.mnemonic = true) (hf : f ∈ entry.forms)
    (hlen : 0 < f.types.length) (ops : List Operand) : f.readOperands ops = ops.drop 1 := by
  have hall : ∀ m ∈ Operation.choosing, Operation.replacesByName m = true := by decide +kernel
  have hreplaces := hall _ (List.contains_iff_mem.mp hname)
  rw [Form.readOperands, if_neg]
  intro hread
  have hother := (not_replaces_of_readsHead hentry hf hread hlen).1
  rw [hreplaces] at hother
  cases hother

/-- Where the first operand is replaced it is not read, but for that of a product. -/
lemma mem_drop_or_of_replaces (hentry : entry ∈ Table.entries)
    (hname : entry.mnemonic = i.mnemonic) (hf : f ∈ entry.forms)
    (hlen : f.types.length = i.operands.length) (hreplaces : Operation.replaces i = true)
    (hq : .reg q ∈ f.readOperands i.operands) :
    .reg q ∈ i.operands.drop 1 ∨
      (i.mnemonic = "imul" ∧ ∃ o o', i.operands = [.reg q, o, o']) := by
  cases hread : f.readsHead with
  | false => exact .inl (by rwa [Form.readOperands, hread, if_neg Bool.false_ne_true] at hq)
  | true =>
    have hmem := Form.mem_of_mem_readOperands hq
    obtain ⟨hother, hmove⟩ := not_replaces_of_readsHead hentry hf hread
      (by rw [hlen]; exact List.length_pos_of_mem hmem)
    rw [hname] at hother hmove
    -- Of the instructions that read their first operand only a product replaces it.
    rw [Operation.replaces, hother, hmove, Bool.false_or, Bool.false_and, Bool.or_false,
      Bool.and_eq_true, beq_iff_eq, beq_iff_eq] at hreplaces
    obtain ⟨himul, hthree⟩ := hreplaces
    obtain ⟨first, o, o', hops⟩ := List.length_eq_three.mp hthree
    rw [hops] at hmem ⊢
    rcases List.mem_cons.mp hmem with rfl | hrest
    · exact .inr ⟨himul, o, o', rfl⟩
    · exact .inl hrest

/-- An operand that is read is taken in, or it is counted too much. -/
lemma uses_or_of_readOperands (hentry : entry ∈ Table.entries)
    (hname : entry.mnemonic = i.mnemonic) (hf : f ∈ entry.forms)
    (hlen : f.types.length = i.operands.length) (hzero : Access.zeroed? i = none)
    (hq : .reg q ∈ f.readOperands i.operands) (hr : q.family = r.family) :
    Operation.Uses i r ∨ Operation.Overcounted i r := by
  have hmem := Form.mem_of_mem_readOperands hq
  by_cases hnop : i.mnemonic = "nop"
  · exact .inr (.idle hnop (Instruction.mem_registers hmem) hr)
  have huses : .reg q ∈ Operation.taken i → Operation.Uses i r ∨ Operation.Overcounted i r :=
    fun h => .inl (Operation.uses_of_taken hnop h hr)
  rw [Operation.taken] at huses
  split_ifs at huses with hcancels hchooses hreplaces
  · obtain ⟨hcancelling, rest, q', hops⟩ := Operation.exists_of_cancels hcancels
    have heq : q = q' :=
      Operand.reg.inj (eq_of_mem_readOperands hentry (hname ▸ hcancelling) hf hlen hops hq)
    refine .inr (.cancelled (Bool.eq_false_iff.mpr fun hzeroing => ?_) hcancels hops (heq ▸ hr))
    have hsome := Access.zeroed?_isSome hzeroing hops
    rw [hzero] at hsome
    cases hsome
  · obtain ⟨hchoosing, o, q', o', hops⟩ := Operation.exists_of_choosesFromOne hchooses
    rw [readOperands_of_choosing hentry (hname ▸ hchoosing) hf
      (by rw [hlen]; exact List.length_pos_of_mem hmem), hops, List.drop_one, List.tail_cons] at hq
    rw [hops, List.drop_one, List.tail_cons] at huses
    rcases List.mem_cons.mp hq with heq | hq
    · exact huses (heq ▸ List.mem_cons_self)
    rcases List.mem_cons.mp hq with heq | hq
    · exact huses (heq ▸ List.mem_cons_self)
    · rw [← List.mem_singleton.mp hq] at hops
      exact .inr (.mask hchoosing hops hr)
  · rcases mem_drop_or_of_replaces hentry hname hf hlen hreplaces hq with
      hrest | ⟨himul, o, o', hops⟩
    · exact huses hrest
    · exact .inr (.product himul hops hr)
  · exact huses hmem

/-- A register that is read without a name is taken in, or it is counted too much. -/
lemma uses_or_of_isImplicit {b : Access} (himplicit : Operation.IsImplicit i b)
    (hr : ∃ q ∈ b.reads, q.family = r.family) :
    Operation.Uses i r ∨ Operation.Overcounted i r := by
  obtain ⟨q, hq, hfamily⟩ := hr
  rcases himplicit.spurious _ (List.mem_map_of_mem hq) with himplied | hspurious
  · by_cases hnop : i.mnemonic = "nop"
    · rw [Operation.implied_of_nop hnop] at himplied
      cases himplied
    · refine .inl ⟨q.family, ?_, by rw [Register.family_family, hfamily]⟩
      rw [Operation.inputs, if_neg (by simpa using hnop)]
      exact List.mem_append_right _ himplied
  · rw [hfamily] at hspurious
    exact .inr (.spurious hspurious.of_family)

/-- A register that an instruction reads is taken in, or it is counted too much. -/
lemma Instruction.Reads.uses_or (h : i.Reads r) :
    Operation.Uses i r ∨ Operation.Overcounted i r := by
  obtain ⟨q, hq, hfamily⟩ := h
  rw [Instruction.reads] at hq
  by_cases hcall : i.isCall = true
  · rw [Access.ofInstruction, if_pos hcall] at hq
    rcases List.mem_append.mp hq with haddress | hq
    · exact Operation.uses_of_address haddress hfamily
    · exact .inr (.call hcall hq hfamily)
  by_cases hjump : (i.isJump || i.isRet) = true
  · rw [Access.ofInstruction, if_neg hcall, if_pos hjump] at hq
    exact Operation.uses_of_address hq hfamily
  by_cases hform : i.HasForm
  swap
  · refine .inr (.unknown hform ?_)
    rw [Instruction.transfers, Bool.or_assoc, Bool.eq_false_iff.mpr hcall,
      Bool.eq_false_iff.mpr hjump]
    rfl
  cases hzero : Access.zeroed? i with
  | some o =>
    obtain ⟨a, ha, hreads⟩ := hform.exists_access_of_zeroed hzero
    rw [ha] at hq
    exact Operation.uses_of_address (hreads ▸ hq) hfamily
  | none =>
    obtain ⟨entry, hentry, hname, f, hf, hlen, a, b, ha, himplicit, hmem⟩ :=
      hform.exists_access hzero
    rw [ha] at hq
    rcases (hmem r.family).mp ⟨q, hq, hfamily⟩ with ⟨q, hq, hfamily⟩ | ⟨q, hq, hfamily⟩ | hq
    · exact Operation.uses_of_address hq hfamily
    · exact uses_or_of_readOperands hentry hname hf hlen hzero hq hfamily
    · exact uses_or_of_isImplicit himplicit hq

end Operands

/-! ## Counted registers -/

/-- The number of arguments of a class is zero or that of a register that is read first. -/
lemma exists_of_countArguments {name : String} {c : ArgClass} {registers : List Register}
    {found : List FirstAccess} {n : ℕ} (h : countArguments name c registers found = .ok n) :
    n = 0 ∨ ∃ r x, registers[n - 1]? = some r ∧
      found.find? (·.family == r.family) = some x ∧ x.isRead = true := by
  refine foldlM_induction_mem (fun n => n = 0 ∨ ∃ r x, registers[n - 1]? = some r ∧
    found.find? (·.family == r.family) = some x ∧ x.isRead = true) ?_ h (.inl rfl)
  rintro n ⟨r, position⟩ hp n' hstep hn
  rw [noteArgument] at hstep
  split at hstep
  · rename_i x hx
    split_ifs at hstep with hread
    · exact Except.ok.inj hstep ▸ hn
    · split at hstep
      · cases hstep
      · obtain rfl := Except.ok.inj hstep
        exact .inr ⟨r, x, List.mem_zipIdx_iff_getElem?.mp hp, hx, by simpa using hread⟩
  · exact Except.ok.inj hstep ▸ hn

namespace SourceFunction

variable {f : SourceFunction} {name : String} {s : Signature}

/-- The instruction is the first one of the body, in the order of the source, that touches the
family of the register, and reads it. -/
def ReadsFirst (f : SourceFunction) (i : Instruction) (r : Register) : Prop :=
  ∃ front back, f.instructions = front ++ i :: back ∧ (∀ j ∈ front, ¬ j.Touches r) ∧ i.Reads r

/-- A family that no instruction touches is not found. -/
lemma find?_eq_none_of_forall {is : List Instruction} {found : List FirstAccess}
    (h : FirstAccess.ofInstructions is = .ok found) {r : Register}
    (hall : ∀ i ∈ is, ¬ i.Touches r) : found.find? (·.family == r.family) = none := by
  refine foldlM_induction_mem (fun found => found.find? (·.family == r.family) = none) ?_ h rfl
  intro found i hi found' hscan hnone
  obtain ⟨y, hy, htouches, -⟩ := FirstAccess.exists_of_scan hscan r
  rw [hy, hnone, Option.none_or, Option.eq_none_iff_forall_ne_some]
  exact fun x hx => hall i hi (htouches.mp (by rw [hx]; rfl))

/-- A family that is found to be read first has an instruction that does so. -/
lemma exists_readsFirst {found : List FirstAccess} (hfound : f.firstAccesses = .ok found)
    {r : Register} {x : FirstAccess} (hx : found.find? (·.family == r.family) = some x)
    (hread : x.isRead = true) : ∃ i, f.ReadsFirst i r := by
  rcases FirstAccess.find?_of_foldlM hfound rfl with
    hnone | ⟨front, i, back, y, hsplit, hfront, -, hy, hreads⟩
  · exact nomatch hx.symm.trans (find?_eq_none_of_forall hfound hnone)
  · obtain rfl := Option.some.inj (hx.symm.trans hy)
    exact ⟨i, front, back, hsplit, hfront, hreads.mp hread⟩

/-- Without arguments on the stack, the numbers of arguments of a discovered signature are those
that are counted for its classes. -/
lemma countArguments_of_discoverSignature (h : f.discoverSignature name = .ok s)
    (hstack : f.stackArguments = .ok 0) (c : ArgClass) :
    ∃ found, f.firstAccesses = .ok found ∧
      countArguments (if name.isEmpty then f.name else name) c c.registers found =
        .ok (s.rank c s.args.length) := by
  obtain ⟨found, hfound, h⟩ := bind_eq_ok.mp h
  obtain ⟨a, ha, h⟩ := bind_eq_ok.mp h
  obtain ⟨b, hb, h⟩ := bind_eq_ok.mp h
  obtain ⟨n, hn, h⟩ := bind_eq_ok.mp h
  obtain rfl : 0 = n := Except.ok.inj (hstack.symm.trans hn)
  obtain rfl := pure_eq_ok.mp h
  refine ⟨found, hfound, ?_⟩
  rw [if_pos rfl, Signature.length_discover]
  cases c with
  | integer =>
    have hrank : a + b + 0 - min (a + b + 0 - a) b = a := by omega
    rw [(Signature.rank_discover (Nat.le_refl _)).2, hrank]
    exact ha
  | float =>
    have hrank : min (a + b + 0 - a) b = b := by omega
    rw [(Signature.rank_discover (Nat.le_refl _)).1, hrank]
    exact hb

end SourceFunction

/-- What the first instruction that touches a family reads of it is taken in by its operation, or it
is counted too much. Without arguments on the stack, a class has no more arguments than this makes
of its registers: the last register that is counted is read first by such an instruction. -/
theorem discoverSignature_counts {f : SourceFunction} {name : String} {s : Signature}
    (h : f.discoverSignature name = .ok s) :
    (∀ r i, f.ReadsFirst i r → Operation.Uses i r ∨ Operation.Overcounted i r) ∧
      (f.stackArguments = .ok 0 → ∀ c : ArgClass, s.rank c s.args.length = 0 ∨
        ∃ r i, c.registers[s.rank c s.args.length - 1]? = some r ∧ f.ReadsFirst i r ∧
          (Operation.Uses i r ∨ Operation.Overcounted i r)) := by
  have huses : ∀ r i, f.ReadsFirst i r → Operation.Uses i r ∨ Operation.Overcounted i r :=
    fun r i ⟨_, _, _, _, hreads⟩ => hreads.uses_or
  refine ⟨huses, fun hstack c => ?_⟩
  obtain ⟨found, hfound, hcount⟩ := SourceFunction.countArguments_of_discoverSignature h hstack c
  refine (exists_of_countArguments hcount).imp_right fun ⟨r, x, hr, hx, hread⟩ => ?_
  obtain ⟨i, hi⟩ := SourceFunction.exists_readsFirst hfound hx hread
  exact ⟨r, i, hr, hi, huses r i hi⟩

/-- A sum of two arguments in a body that sets a third argument register to zero. -/
theorem discoverSignature_counts_of_sum :
    let text := String.join [
      "f: push rbp\n", "mov rbp, rsp\n", "xor rdx, rdx\n", "mov rax, rdi\n", "add rax, rsi\n",
      "pop rbp\n", "ret\n"]
    ∃ records functions, Source.readUnit text = .ok records ∧
      extractFunctions records = .ok functions ∧ ∃ f ∈ functions, ∃ s,
        f.discoverSignature "" = .ok s ∧ f.stackArguments = .ok 0 ∧
        s.rank .integer s.args.length = 2 ∧
        (∀ r i, f.ReadsFirst i r → Operation.Uses i r ∨ Operation.Overcounted i r) ∧
        ∀ c : ArgClass, s.rank c s.args.length = 0 ∨
          ∃ r i, c.registers[s.rank c s.args.length - 1]? = some r ∧ f.ReadsFirst i r ∧
            (Operation.Uses i r ∨ Operation.Overcounted i r) := by
  intro text
  obtain ⟨records, functions, hread, hextract, f, hf, hs, hstack⟩ :
      ∃ records functions, Source.readUnit text = .ok records ∧
        extractFunctions records = .ok functions ∧ ∃ f ∈ functions,
          (f.discoverSignature "").toOption.any (fun s => decide
            (s.rank .integer s.args.length = 2)) = true ∧
          f.stackArguments.toOption.any (fun n => decide (n = 0)) = true :=
    exists_functions_of_any (by decide +kernel)
  obtain ⟨s, hs, hrank⟩ := exists_ok_of_any hs
  obtain ⟨_, hstack, rfl⟩ := exists_ok_of_any hstack
  obtain ⟨huses, hcount⟩ := discoverSignature_counts hs
  exact ⟨records, functions, hread, hextract, f, hf, s, hs, hstack, hrank, huses, hcount hstack⟩

/-- A register of all ones and a product in the second argument register: an integer and a vector
argument are counted that no instruction takes in. -/
theorem not_discoverSignature_counts :
    let text := String.join [
      "f: push rbp\n", "mov rbp, rsp\n", "pcmpeqd xmm0, xmm0\n", "imul rsi, rdi, 5\n",
      "pop rbp\n", "ret\n"]
    ∃ records functions, Source.readUnit text = .ok records ∧
      extractFunctions records = .ok functions ∧ ∃ f ∈ functions, ∃ s,
        f.discoverSignature "" = .ok s ∧ f.stackArguments = .ok 0 ∧
        s.rank .integer s.args.length = 2 ∧ s.rank .float s.args.length = 1 ∧
        ∀ i ∈ f.instructions, ¬ Operation.Uses i .rsi ∧ ¬ Operation.Uses i (.xmm 0) := by
  intro text
  obtain ⟨records, functions, hread, hextract, f, hf, hs, hstack, huses⟩ :
      ∃ records functions, Source.readUnit text = .ok records ∧
        extractFunctions records = .ok functions ∧ ∃ f ∈ functions,
          (f.discoverSignature "").toOption.any (fun s => decide
            (s.rank .integer s.args.length = 2 ∧ s.rank .float s.args.length = 1)) = true ∧
          f.stackArguments.toOption.any (fun n => decide (n = 0)) = true ∧
          ∀ i ∈ f.instructions, ¬ Operation.Uses i .rsi ∧ ¬ Operation.Uses i (.xmm 0) :=
    exists_functions_of_any (by decide +kernel)
  obtain ⟨s, hs, hintegers, hfloats⟩ := exists_ok_of_any hs
  obtain ⟨_, hstack, rfl⟩ := exists_ok_of_any hstack
  exact ⟨records, functions, hread, hextract, f, hf, s, hs, hstack, hintegers, hfloats, huses⟩

end AsmBridge
