import AsmBridge.Proofs.Abi.LiveIn
import AsmBridge.Proofs.Abi.Stops
import Mathlib.Tactic.MkIffOfInductiveProp

/-!
# What operations take in

Which registers an operation takes in, to compute its result and its flags, what it stores and
where, is stated here after the manual of the processor and without the marks of the encoding table:
an operation takes in all its operands, but for a first one that it replaces as a whole, and some
registers that it does not name. What the marks of the table say of the same instructions is decided
for all of its rows.
-/

namespace AsmBridge

/-! ## The reference -/

namespace Operation

/-- The name begins with `lead`, byte by byte. -/
def begins (lead mnemonic : String) : Bool :=
  lead.toByteArray.data.toList.isPrefixOf mnemonic.toByteArray.data.toList

/-- The comparisons with VEX, which set flags and have no destination. -/
def vexComparisons : List String :=
  ["vucomiss", "vucomisd", "vcomiss", "vcomisd", "vptest", "vtestps"]

/-- Instructions without VEX that replace their first operand by something else. -/
def replacing : List String := [
  "pop", "mov", "movabs", "lea", "movzx", "movsx", "movsxd", "bsf", "bsr", "tzcnt", "lzcnt",
  "popcnt", "movups", "movaps", "movupd", "movapd", "movdqu", "movdqa", "movntps", "movd", "movq",
  "cvttss2si", "cvttsd2si", "cvtss2si", "cvtsd2si", "movmskps", "pmovmskb", "sqrtps", "sqrtpd",
  "cvtdq2ps", "cvtps2dq", "cvttps2dq", "pshufd", "roundps", "roundpd"]

/-- Instructions of the name replace their first operand, whatever their operands are. With VEX
these are all but the comparisons and the fused multiplications. -/
def replacesByName (mnemonic : String) : Bool :=
  if begins "v" mnemonic then !begins "vf" mnemonic && !vexComparisons.contains mnemonic
  else begins "set" mnemonic || replacing.contains mnemonic

/-- The first operand is replaced as a whole. A multiplication of two operands replaces a third one,
and a move of one element leaves the others of a register alone only if it comes from a register. -/
def replaces (i : Instruction) : Bool :=
  replacesByName i.mnemonic || (i.mnemonic == "imul" && i.operands.length == 3) ||
    (["movss", "movsd"].contains i.mnemonic && !i.addresses.isEmpty)

/-- Operations whose result and flags do not depend on a register that stands for both of their
sources: differences, comparisons, the intersection with the complement, and the shift of a number
by itself to the right. -/
def cancelling : List String := [
  "xor", "sub", "sbb", "cmp", "pxor", "xorps", "xorpd", "psubb", "psubw", "psubd", "psubq",
  "pcmpeqb", "pcmpeqw", "pcmpeqd", "pcmpgtd", "pandn", "andnps", "andnpd", "vxorps", "vxorpd",
  "vpxor", "vpsubb", "vpsubw", "vpsubd", "vpsubq", "vpsubsb", "vpsubsw", "vpsubusb", "vpsubusw",
  "vpsadbw", "vpcmpeqb", "vpcmpeqw", "vpcmpeqd", "vpcmpeqq", "vpcmpgtb", "vpcmpgtw", "vpcmpgtd",
  "vpcmpgtq", "vpandn", "vandnps", "vandnpd", "vpsrlvd", "vpsrlvq"]

/-- Both sources are one register, on which the operation does not depend. -/
def cancels (i : Instruction) : Bool :=
  cancelling.contains i.mnemonic &&
    match i.operands.reverse with
    | .reg a :: .reg b :: _ => a == b
    | _ => false

/-- Operations that choose between the elements of two sources by a mask, the last operand. -/
def choosing : List String := ["vblendvps", "vblendvpd", "vpblendvb"]

/-- The choice is between the elements of one register, so that the mask does not matter. -/
def choosesFromOne (i : Instruction) : Bool :=
  choosing.contains i.mnemonic &&
    match i.operands with
    | [_, .reg a, .reg b, _] => a == b
    | _ => false

/-- The operands that are taken in. -/
def taken (i : Instruction) : List Operand :=
  if cancels i then []
  else if choosesFromOne i then (i.operands.drop 1).take 2
  else if replaces i then i.operands.drop 1
  else i.operands

/-- The instruction is repeated as often as the counter tells, if it moves or stores strings. -/
def repeats (i : Instruction) : Bool := i.mark.any (Text.startsWith "rep")

/-- The moves of strings. -/
def stringMoves : List String := ["movsb", "movsq"]

/-- The stores of strings. -/
def stringStores : List String := ["stosb", "stosd", "stosq"]

/-- The operand names the width of a byte, or none, for which bytes are taken. -/
def isByte (i : Instruction) : Bool :=
  [0, 8].contains ((i.operands.head?.bind (·.namedBits?)).getD 0)

/-- The registers that moves and stores of strings take in. -/
def strings (i : Instruction) : List Register :=
  let counter := if repeats i then [.rcx] else []
  if stringMoves.contains i.mnemonic then [.rsi, .rdi] ++ counter
  else if stringStores.contains i.mnemonic then [.rdi, .rax] ++ counter
  else []

/-- The registers that are taken in without being named. -/
def implied (i : Instruction) : List Register :=
  if ["cqo", "cdq", "cdqe", "cwde", "mul"].contains i.mnemonic ||
    (i.mnemonic == "imul" && i.operands.length == 1) then [.rax]
  else if ["div", "idiv"].contains i.mnemonic then
    if isByte i then [.rax] else [.rax, .rdx]
  else if ["push", "pop"].contains i.mnemonic then [.rsp]
  else strings i

/-- The registers that an instruction takes in, whatever its immediates are. -/
def inputs (i : Instruction) : List Register :=
  if i.mnemonic == "nop" then []
  else i.addresses.flatMap (·.registers) ++ (taken i).filterMap Placed.register? ++ implied i

/-- The instruction takes in a register of the family of `r`. -/
def Uses (i : Instruction) (r : Register) : Prop := ∃ q ∈ inputs i, q.family = r.family

instance (i : Instruction) (r : Register) : Decidable (Uses i r) :=
  inferInstanceAs (Decidable (∃ q ∈ inputs i, q.family = r.family))

/-- Instructions that take in their first operand, or keep a part of it, and are marked in the table
as if they replaced it. -/
def markedAsMoves : List String := vexComparisons ++ ["movss", "movsd", "cvtsi2ss", "cvtsi2sd"]

end Operation

/-- The instruction is one of the table, in lower case as instructions are read, and a form is
chosen for its operands. -/
def Instruction.HasForm (i : Instruction) : Prop :=
  Text.lower i.mnemonic = i.mnemonic ∧ ∃ entry f, Table.lookup? i.mnemonic = some entry ∧
    selectForm entry.mnemonic entry.forms i.operands = .ok f

/-! ## The marks of the table -/

/-- What the name of an instruction of the table tells of its forms, and the marks of these of what
it takes in. -/
@[mk_iff]
structure Table.Entry.IsMarked (e : Table.Entry) : Prop where
  /-- It is no call, no return and does not begin like a jump. -/
  not_transfer : e.mnemonic ≠ "call" ∧ e.mnemonic ≠ "ret" ∧
    Operation.begins "j" e.mnemonic = false
  /-- First operands that are marked as read are replaced by no instruction of the name, the others
  by all of them, or the instruction is marked as a move. -/
  head : ((∀ f ∈ e.forms, ∀ s ∈ f.slots.head?, s.use.reads = true) ∧
      Operation.replacesByName e.mnemonic = false ∧
      ["movss", "movsd"].contains e.mnemonic = false) ∨
    ((∀ f ∈ e.forms, ∀ s ∈ f.slots.head?, s.use.reads = false) ∧
      (Operation.replacesByName e.mnemonic = true ∨
        Operation.markedAsMoves.contains e.mnemonic = true))
  /-- The other operands are read. -/
  tail : ∀ f ∈ e.forms, ∀ s ∈ f.slots.tail, s.use.reads = true
  /-- The counter is no first operand. -/
  not_counter : ∀ f ∈ e.forms, f.types.head? ≠ some (.fixed (.gp .w8 1))
  /-- With three operands it sets the first to zero only if that is a register. -/
  zeroing : (∀ f ∈ e.forms, 3 ≤ f.types.length → f.types.head?.any (·.namesWidth) = true) ∨
    Access.zeroing.contains e.mnemonic = false
  /-- If it does not depend on equal sources, it has no operands besides these but a first one that
  it does not read. -/
  cancelling : (∀ f ∈ e.forms,
      f.types.length ≤ if f.slots.head?.all (·.use.reads) then 2 else 3) ∨
    Operation.cancelling.contains e.mnemonic = false
  /-- Without operands it begins like a move or a store of strings only if it is one. -/
  bare : (∀ f ∈ e.forms, f.types ≠ []) ∨
    (Text.startsWith "movs" e.mnemonic = Operation.stringMoves.contains e.mnemonic ∧
      Text.startsWith "stos" e.mnemonic = Operation.stringStores.contains e.mnemonic)

instance (e : Table.Entry) : Decidable e.IsMarked := decidable_of_iff' _ e.isMarked_iff

/-- The names and the marks of the table. -/
lemma Table.isMarked : ∀ entry ∈ Table.entries, entry.IsMarked := by
  decide +kernel

/-- The forms of multiplications and divisions of accumulators have one operand, a general register
or a datum. -/
lemma forms_of_factor : ∀ m ∈ ["mul", "div", "idiv", "imul"], ∃ forms,
    Table.lookup? m = some ⟨m, forms⟩ ∧ ∀ f ∈ forms,
      (∃ w ∈ Width.all, f.types = [.gpOrMem w]) ∨ (m = "imul" ∧ f.types.length ≠ 1) := by
  simp only [List.forall_mem_cons, List.not_mem_nil, false_implies, implies_true, and_true]
  refine ⟨⟨_, rfl, ?_⟩, ⟨_, rfl, ?_⟩, ⟨_, rfl, ?_⟩, ⟨_, rfl, ?_⟩⟩ <;> decide

/-- The forms of moves and stores of strings have no operands. -/
lemma forms_of_string : ∀ m ∈ Operation.stringMoves ++ Operation.stringStores, ∃ forms,
    Table.lookup? m = some ⟨m, forms⟩ ∧ ∀ f ∈ forms, f.types = [] := by
  simp only [Operation.stringMoves, Operation.stringStores, List.cons_append, List.nil_append,
    List.forall_mem_cons, List.not_mem_nil, false_implies, implies_true, and_true]
  refine ⟨⟨_, rfl, ?_⟩, ⟨_, rfl, ?_⟩, ⟨_, rfl, ?_⟩, ⟨_, rfl, ?_⟩, ⟨_, rfl, ?_⟩⟩ <;> decide

/-! ## Instructions with a form -/

section HasForm

variable {i : Instruction}

/-- An instruction with a form is one of the table, with a form that takes its operands. -/
lemma Instruction.HasForm.exists_form (h : i.HasForm) :
    ∃ entry ∈ Table.entries, entry.mnemonic = i.mnemonic ∧
      Table.lookup? i.mnemonic = some entry ∧ ∃ f ∈ entry.forms,
        selectForm entry.mnemonic entry.forms i.operands = .ok f ∧
        List.Forall₂ (fun t o => t.takes o = true) f.types i.operands := by
  obtain ⟨hlower, entry, f, hentry, hf⟩ := h
  obtain ⟨hmem, htakes, -⟩ := selectForm_spec hf
  have hname : entry.mnemonic = i.mnemonic := by
    have hfound := List.find?_some (by unfold Table.lookup? at hentry; exact hentry)
    rw [beq_iff_eq, hlower] at hfound
    exact hfound
  exact ⟨entry, Table.mem_of_lookup? hentry, hname, hentry, f, hmem, hf, htakes⟩

/-- An instruction with machine code has a form. -/
lemma Instruction.hasForm_of_encodeFully (hlower : Text.lower i.mnemonic = i.mnemonic)
    {e : Encoded} (he : encodeFully i.mnemonic i.mark i.operands = .ok e) : i.HasForm := by
  unfold encodeFully at he
  split at he
  · cases he
  · rename_i entry hentry
    obtain ⟨f, hf, -⟩ := bind_eq_ok.mp he
    exact ⟨hlower, entry, f, hentry, hf⟩

/-- An instruction whose code is computed has a form. -/
lemma Instruction.hasForm_of_any (h : (Text.lower i.mnemonic == i.mnemonic &&
      (encodeFully i.mnemonic i.mark i.operands).toOption.isSome) = true) : i.HasForm := by
  rw [Bool.and_eq_true, beq_iff_eq] at h
  obtain ⟨hlower, hsome⟩ := h
  cases he : encodeFully i.mnemonic i.mark i.operands with
  | error e =>
    rw [he] at hsome
    cases hsome
  | ok e => exact Instruction.hasForm_of_encodeFully hlower he

/-- An instruction with a form transfers no control. -/
lemma Instruction.HasForm.not_transfer (h : i.HasForm) :
    i.isCall = false ∧ i.isJump = false ∧ i.isRet = false := by
  obtain ⟨entry, hentry, hname, -⟩ := h.exists_form
  obtain ⟨hcall, hret, hletter⟩ := (Table.isMarked entry hentry).not_transfer
  rw [hname] at hcall hret hletter
  refine ⟨beq_false_of_ne hcall, ?_, beq_false_of_ne hret⟩
  have hjumps : ∀ p ∈ jumpNames, Operation.begins "j" p.1 = true := by decide +kernel
  rw [Instruction.isJump, Instruction.jumpName?, Option.isSome_eq_false_iff,
    Option.isNone_iff_eq_none, List.lookup_eq_none_iff]
  intro p hp
  rw [bne_iff_ne]
  intro heq
  rw [heq, hjumps p hp] at hletter
  cases hletter

end HasForm

end AsmBridge
