import AsmBridge.Abi.Bridge
import AsmBridge.Proofs.Encoding.OperandSize
import AsmBridge.Proofs.Encoding.Refusal

/-!
# Functions that are given up

Of most instructions it is told which registers they read and write, whatever their operands are.
`Instruction.Untold` lists those of which it is not told; a function with such an instruction has no
signature, unless one is declared for it, and no register for the pool. What else keeps a function
from being planned is a defect, a declared result with a length that cannot be read, and a frame
with sizes that cannot be written.
-/

namespace AsmBridge

namespace Instruction

/-- The instruction multiplies or divides accumulators by its first operand. -/
def scalesAccumulators (i : Instruction) : Bool :=
  ["mul", "div", "idiv"].contains i.mnemonic || (i.mnemonic == "imul" && i.operands.length == 1)

/-- Why it is not told which registers an instruction reads and writes. -/
inductive Untold (i : Instruction) : Fault → Prop
  /-- It sets something to zero that is no register. -/
  | zeroed {first : Operand} {rest : List Operand} {r : Register}
    (hname : Access.zeroing.contains i.mnemonic = true)
    (hops : i.operands = first :: rest ++ [.reg r, .reg r]) (hfirst : ∀ q, first ≠ .reg q) :
    Untold i (.stop .registerExpected)
  /-- It multiplies or divides by a number or a symbol. -/
  | factor {o : Operand} {rest : List Operand} (h : i.scalesAccumulators = true)
    (hops : i.operands = o :: rest) (ho : (∃ v, o = .imm v) ∨ ∃ s, o = .sym s) :
    Untold i (.stop .registerExpected)
  /-- It multiplies or divides by something that has not the width of an accumulator. -/
  | accumulator {o : Operand} {rest : List Operand} {bits : ℕ} (h : i.scalesAccumulators = true)
    (hops : i.operands = o :: rest) (hbits : o.namedBits? = some bits)
    (hwidth : Width.ofBits? bits = none) : Untold i (.stop .accumulatorMissing)
  /-- It stores strings, and its last letter names no width. -/
  | store (hname : Text.startsWith "stos" i.mnemonic = true) (hops : i.operands = [])
    (hlast : ∀ c ∈ i.mnemonic.toList.getLast?, c ∉ ['b', 'w', 'd', 'q']) :
    Untold i (.stop .accumulatorMissing)
  /-- It has a number below zero that is too long to be written. -/
  | unwritable {o : Operand} (ho : o ∈ i.operands) (h : o.IsUnwritable) :
    Untold i (.encoding .immediateUnwritable)

end Instruction

/-! ## Accesses -/

namespace Access

variable {i : Instruction}

/-- The width of a multiplication or a division. -/
lemma failsWith_factorBits (h : i.scalesAccumulators = true) :
    FailsWith (fun s => i.Untold (.stop s)) (factorBits i.operands) := by
  unfold factorBits
  split
  · exact failsWith_ok _
  · exact failsWith_ok _
  · exact failsWith_ok _
  · rename_i hnil hreg hmem
    refine failsWith_error ?_
    cases hops : i.operands with
    | nil => exact absurd hops hnil
    | cons o rest =>
      cases o with
      | reg r => exact absurd hops (hreg r rest)
      | mem a => exact absurd hops (hmem a rest)
      | imm v => exact .factor h hops (.inl ⟨v, rfl⟩)
      | sym s => exact .factor h hops (.inr ⟨s, rfl⟩)

/-- The width of a multiplication or a division is that of its operand, or 64 bits. -/
lemma eq_or_of_factorBits {ops : List Operand} {bits : ℕ} (h : factorBits ops = .ok bits) :
    bits = 64 ∨ ∃ o rest, ops = o :: rest ∧ o.namedBits? = some bits := by
  unfold factorBits at h
  split at h
  · exact .inl (Except.ok.inj h).symm
  · exact .inr ⟨_, _, rfl, congrArg some (Except.ok.inj h)⟩
  · rename_i a rest
    have h := Except.ok.inj h
    split at h
    · exact .inl h.symm
    · rename_i n _ hn
      exact .inr ⟨_, _, rfl, by rw [Operand.namedBits?, hn, h]⟩
    · exact .inl h.symm
  · cases h

/-- The accumulators of a multiplication or a division. -/
lemma failsWith_accumulators (h : i.scalesAccumulators = true) (divides : Bool) :
    FailsWith (fun s => i.Untold (.stop s)) (accumulators divides i.operands) := by
  refine (failsWith_factorBits h).bind fun bits hbits => ?_
  have halias : ∀ {r : Register} {n : Fin 16} (b : ℕ), r.family = .gp .w64 n →
      (Width.ofBits? b = none → b = bits) → FailsWith (fun s => i.Untold (.stop s)) (aliasOf r b) := by
    intro r n b hr hb
    cases hw : Width.ofBits? b with
    | some w =>
      rw [aliasOf, Register.alias?, hr, hw]
      exact failsWith_ok _
    | none =>
      rw [aliasOf, Register.alias?, hr, hw]
      refine failsWith_error ?_
      obtain rfl := hb hw
      rcases eq_or_of_factorBits hbits with rfl | ⟨o, rest, hops, hbits⟩
      · cases hw
      · exact .accumulator h hops hbits hw
  have hrax : Register.rax.family = .gp .w64 0 := rfl
  have hrdx : Register.rdx.family = .gp .w64 2 := rfl
  split
  · refine (halias 16 hrax fun hw => nomatch hw).bind fun whole _ => FailsWith.bind ?_
      fun low _ => failsWith_ok _
    cases divides
    · exact halias 8 hrax fun hw => nomatch hw
    · exact halias 16 hrax fun hw => nomatch hw
  · exact (halias bits hrax fun _ => rfl).bind fun low _ =>
      (halias bits hrdx fun _ => rfl).bind fun high _ => failsWith_ok _

/-- The pointers and the accumulator of a string move or store. -/
lemma failsWith_strings : FailsWith (fun s => i.Untold (.stop s)) (strings i) := by
  unfold strings
  split_ifs with _ hstore
  · exact failsWith_ok _
  · rw [Bool.and_eq_true, List.isEmpty_iff] at hstore
    have hbits : FailsWith (fun s => i.Untold (.stop s)) (storeBits i.mnemonic) := by
      unfold storeBits
      split
      · exact failsWith_ok _
      · exact failsWith_ok _
      · exact failsWith_ok _
      · exact failsWith_ok _
      · rename_i hb hw hd hq
        refine failsWith_error (.store hstore.1 hstore.2 fun c hc hmem => ?_)
        simp only [List.mem_cons, List.not_mem_nil, or_false] at hmem
        rcases hmem with rfl | rfl | rfl | rfl
        · exact hb hc
        · exact hw hc
        · exact hd hc
        · exact hq hc
    refine hbits.bind fun bits hbits => FailsWith.bind ?_ fun value _ => failsWith_ok _
    have hwidth : ∃ w, Width.ofBits? bits = some w := by
      unfold storeBits at hbits
      split at hbits
      · exact ⟨.w8, Except.ok.inj hbits ▸ rfl⟩
      · exact ⟨.w16, Except.ok.inj hbits ▸ rfl⟩
      · exact ⟨.w32, Except.ok.inj hbits ▸ rfl⟩
      · exact ⟨.w64, Except.ok.inj hbits ▸ rfl⟩
      · cases hbits
    obtain ⟨w, hw⟩ := hwidth
    have hrax : Register.rax.family = .gp .w64 0 := rfl
    rw [aliasOf, Register.alias?, hrax, hw]
    exact failsWith_ok _
  · exact failsWith_ok _

/-- The accesses to registers that are not named. -/
lemma failsWith_implicit : FailsWith (fun s => i.Untold (.stop s)) (implicit i) := by
  have hscales : i.mnemonic ∈ ["mul", "div", "idiv"] → i.scalesAccumulators = true := by
    intro h
    rw [Instruction.scalesAccumulators, Bool.or_eq_true]
    exact .inl (by simpa using h)
  unfold implicit
  dsimp only
  split
  · exact failsWith_ok _
  · exact failsWith_ok _
  · exact failsWith_ok _
  · exact failsWith_ok _
  · rename_i hname
    exact failsWith_accumulators (hscales (by rw [hname]; decide)) _
  · rename_i hname
    exact failsWith_accumulators (hscales (by rw [hname]; decide)) _
  · rename_i hname
    exact failsWith_accumulators (hscales (by rw [hname]; decide)) _
  · split_ifs with himul
    · refine failsWith_accumulators ?_ _
      rw [Instruction.scalesAccumulators, himul, Bool.or_true]
    · exact failsWith_strings.map _

/-- What an instruction sets to zero is its first operand, and its last two are one register. -/
lemma zeroed?_eq_some {o : Operand} (h : zeroed? i = some o) : zeroing.contains i.mnemonic = true ∧
    ((∃ r, o = .reg r) ∨ ∃ rest r, i.operands = o :: rest ++ [.reg r, .reg r]) := by
  unfold zeroed? at h
  split_ifs at h with hname
  refine ⟨hname, ?_⟩
  split at h
  · rename_i first rest a b tail hops hreverse
    split_ifs at h with hab
    obtain rfl := Option.some.inj h
    subst hab
    have hrow : first :: rest = tail.reverse ++ [.reg a, .reg a] := by
      rw [← hops, ← List.reverse_reverse i.operands, hreverse]
      simp
    cases htail : tail.reverse with
    | nil =>
      rw [htail] at hrow
      exact .inl ⟨a, (List.cons.inj hrow).1⟩
    | cons first' rest' =>
      rw [htail] at hrow
      obtain ⟨rfl, -⟩ := List.cons.inj hrow
      exact .inr ⟨rest', a, hops.trans hrow⟩
  · cases h

/-- The accesses of an instruction. -/
lemma failsWith_ofInstruction (hi : ∀ a ∈ i.addresses, a.IsReadable) :
    FailsWith i.Untold (ofInstruction i) := by
  have hroles : FailsWith i.Untold ((roles i).mapError Fault.encoding) := by
    refine FailsWith.mapError (P := fun e => i.Untold (.encoding e)) ?_ fun e he => he
    unfold roles
    split
    · exact failsWith_ok _
    · rename_i entry _
      split
      · exact failsWith_ok _
      · rename_i e he
        have hops : ∀ a, .mem a ∈ i.operands → a.IsReadable := fun a ha =>
          hi a (List.mem_filterMap.mpr ⟨_, ha, rfl⟩)
        split_ifs with hrefusal
        · exact failsWith_ok _
        · refine failsWith_error ?_
          rcases failsWith_selectForm_of_isReadable hops _ _ e he with h | ⟨rfl, o, ho, h⟩
          · exact absurd h hrefusal
          · exact .unwritable ho h
  unfold ofInstruction
  dsimp only
  split_ifs
  · exact failsWith_ok _
  · exact failsWith_ok _
  · split
    · exact failsWith_ok _
    · rename_i o hreg ho
      refine failsWith_error ?_
      obtain ⟨hname, ⟨r, rfl⟩ | ⟨rest, r, hops⟩⟩ := zeroed?_eq_some ho
      · exact (hreg r rfl).elim
      · exact .zeroed hname hops hreg
    · exact hroles.bind fun roles _ =>
        (failsWith_implicit.mapError fun s hs => hs).bind fun a _ => failsWith_ok _

end Access

/-! ## Plans -/

/-- The fault is a defect, or it is not told of an instruction of the function what it reads and
writes. -/
def IsAccessFault (f : SourceFunction) (e : Fault) : Prop :=
  (∃ d, e = .defect d) ∨ ∃ i ∈ f.instructions, i.Untold e

/-- The length of an array type is too long to be read. -/
def IsUnreadableKind (kind : String) : Prop :=
  ∃ ds n, arrayParts? kind = some (ds, n) ∧ Text.digitLimit < ds.length

namespace SourceFunction

/-- The addresses of the instructions of a function can be read. -/
def HasReadable (f : SourceFunction) : Prop :=
  ∀ i ∈ f.instructions, ∀ a ∈ i.addresses, a.IsReadable

/-- The frame that a function is given, if it can be written. -/
def layout (f : SourceFunction) (slots : List ArgSlot) (reserve : ℕ) (align : ℤ) : FrameLayout :=
  let spills := slots.countP (·.register?.isNone)
  { locals := f.locals
    spills := spills
    pushes := f.instructions.countP fun i => i.mnemonic == "push"
    callReserve := reserve
    align := max align f.realign
    realign := f.realign
    framed := f.needsFrame spills reserve }

variable {f : SourceFunction}

/-- What the addresses of a function say of its stack arguments is a number, or there is a
defect. -/
lemma failsWith_stackArguments (f : SourceFunction) :
    FailsWith (fun e => ∃ d, e = Fault.defect d) f.stackArguments := by
  refine failsWith_foldlM (fun p _ n => ?_) _
  unfold noteStackArgument
  dsimp only
  split_ifs
  · exact failsWith_ok _
  · exact failsWith_error ⟨_, rfl⟩
  · exact failsWith_ok _

/-- The signature that a body implies. -/
lemma failsWith_discoverSignature (hf : f.HasReadable) (name : String) :
    FailsWith (IsAccessFault f) (f.discoverSignature name) := by
  have hcount : ∀ (name : String) (c : ArgClass) (registers : List Register)
      (found : List FirstAccess),
      FailsWith (IsAccessFault f) (countArguments name c registers found) := by
    intro name c registers found
    refine failsWith_foldlM (fun p _ n => ?_) _
    unfold noteArgument
    dsimp only
    split
    · split_ifs
      · exact failsWith_ok _
      · split
        · exact failsWith_error (.inl ⟨_, rfl⟩)
        · exact failsWith_ok _
    · exact failsWith_ok _
  have hfirst : FailsWith (IsAccessFault f) f.firstAccesses := by
    refine failsWith_foldlM (fun i hi found => FailsWith.bind ?_ fun a _ => failsWith_ok _) _
    exact (Access.failsWith_ofInstruction (hf i hi)).imp fun e he => .inr ⟨i, hi, he⟩
  refine hfirst.bind fun found _ => (hcount _ _ _ _).bind fun integers _ =>
    (hcount _ _ _ _).bind fun floats _ => FailsWith.bind ?_ fun stack _ => failsWith_ok _
  exact f.failsWith_stackArguments.imp fun e he => .inl he

/-- A signature whose types cannot be passed has a defect, or its result has a length that cannot be
read. -/
lemma failsWith_validate (s : Signature) :
    FailsWith (fun e => (∃ d, e = .defect d) ∨
      (e = .stop .numberUnreadable ∧ ∃ r ∈ s.result, IsUnreadableKind r.kind)) s.validate := by
  unfold Signature.validate
  split
  · exact failsWith_error (.inl ⟨_, rfl⟩)
  · exact failsWith_ok _
  · rename_i r _ hr
    split
    · exact failsWith_ok _
    · exact failsWith_error (.inl ⟨_, rfl⟩)
    · rename_i e he
      unfold ResultShape.ofKind arrayBytes Text.plainDecimal at he
      split_ifs at he
      split at he
      · cases he
      · cases he
      · cases he
      · rename_i e' he'
        obtain rfl := Except.error.inj he
        refine failsWith_error (.inr ⟨rfl, r, hr, ?_⟩)
        split at he'
        · rename_i ds n hparts
          split_ifs at he' with hlong
          · exact ⟨ds, n, hparts, hlong⟩
          · cases he'
        · cases he'

/-- A function without a signature has a defect or is given up: because it is not told of an
instruction what it reads and writes, or because a declared result cannot be read. -/
lemma failsWith_resolveSignature (hf : f.HasReadable) (symbol : String) (prototypes : Prototypes) :
    FailsWith (fun e => IsAccessFault f e ∨ (e = .stop .numberUnreadable ∧
      ∃ s ∈ (prototypes.find? symbol).or (prototypes.find? f.name), ∃ r ∈ s.result,
        IsUnreadableKind r.kind)) (f.resolveSignature symbol prototypes) := by
  unfold resolveSignature
  cases hs : (prototypes.find? symbol).or (prototypes.find? f.name) with
  | some s =>
    refine (f.failsWith_stackArguments.imp fun e he => .inl (.inl he)).bind fun n _ => ?_
    refine (failsWith_validate s).imp fun e he => ?_
    exact he.imp .inl (And.imp_right fun h => ⟨s, rfl, h⟩)
  | none =>
    refine ((failsWith_discoverSignature hf symbol).imp fun e he => .inl he).bind fun s hs' => ?_
    refine (failsWith_validate s).imp fun e he => ?_
    -- A signature that is discovered has no result.
    obtain ⟨found, -, h⟩ := bind_eq_ok.mp hs'
    obtain ⟨integers, -, h⟩ := bind_eq_ok.mp h
    obtain ⟨floats, -, h⟩ := bind_eq_ok.mp h
    obtain ⟨stack, -, h⟩ := bind_eq_ok.mp h
    obtain rfl := pure_eq_ok.mp h
    rcases he with he | ⟨-, r, hr, -⟩
    · exact .inl (.inl he)
    · cases hr

/-- A function without a frame has a defect, or the sizes of its frame cannot be written. -/
lemma failsWith_planFrame (slots : List ArgSlot) (reserve : ℕ) :
    FailsWith (fun e => (∃ d, e = .defect d) ∨ (e = .stop .numberUnwritable ∧
      ∃ align, f.stackAlignment = .ok align ∧
        (f.layout slots reserve align).isWritable = false)) (f.planFrame slots reserve) := by
  unfold planFrame
  dsimp only
  split
  · exact failsWith_error (.inl ⟨_, rfl⟩)
  · split
    · exact failsWith_error (.inl ⟨_, rfl⟩)
    · refine FailsWith.bind ?_ fun align halign => ?_
      · refine failsWith_foldlM (fun p _ n => ?_) _
        unfold noteAlignment
        dsimp only
        split_ifs
        · exact failsWith_ok _
        · exact failsWith_ok _
        · exact failsWith_error (.inl ⟨_, rfl⟩)
      · split
        · exact failsWith_ok _
        · rename_i hwritable
          exact failsWith_error (.inr ⟨rfl, align, halign, Bool.eq_false_iff.mpr hwritable⟩)

/-- A function without a register for the pool has a defect, or it is not told of an instruction
what it reads and writes. -/
lemma failsWith_poolRegister (hf : f.HasReadable) :
    FailsWith (IsAccessFault f) f.poolRegister := by
  refine FailsWith.bind (failsWith_mapM fun i hi => FailsWith.bind ?_ fun a _ => failsWith_ok _)
    fun used _ => ?_
  · exact (Access.failsWith_ofInstruction (hf i hi)).imp fun e he => .inr ⟨i, hi, he⟩
  · split
    · exact failsWith_ok _
    · exact failsWith_error (.inl ⟨_, rfl⟩)

end SourceFunction

end AsmBridge
