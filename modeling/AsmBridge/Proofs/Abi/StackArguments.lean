import AsmBridge.Proofs.Abi.Discovered
import AsmBridge.Proofs.Abi.Entry
import AsmBridge.Proofs.Conversion.Paths
import AsmBridge.Proofs.Function.Extraction

/-!
# Arguments on the stack

A body reads its stack arguments from the words above the return address, and the lines before it
move the arguments that have no register there. The words that a body reaches are counted from its
addresses; how many words are moved depends on its signature. A signature that is discovered has as
many arguments on the stack as the body reaches words. A declared one has those that it declares,
whatever the body reaches: the accesses of the body stay within the words that are moved exactly if
their number is as large as that of the words counted.
-/

namespace AsmBridge

/-! ## Words that a body reaches -/

namespace Address

/-- The bytes of an access to a stack argument: as many as its width tells, and at least a word. -/
def argumentBytes (a : Address) : ℤ := max (((a.bits.filter (· != 0)).getD 64) / 8 : ℕ) 8

variable {a : Address}

lemma eight_le_argumentBytes (a : Address) : 8 ≤ a.argumentBytes := le_max_right _ _

/-- Stack arguments are above the return address. -/
lemma sixteen_le_of_isStackArgument (h : a.isStackArgument = true) : 16 ≤ a.disp := by
  rw [isStackArgument, Bool.and_eq_true, Bool.and_eq_true] at h
  exact of_decide_eq_true h.2

/-- An access reaches no more than so many words if it ends within them. -/
lemma stackWords_le_iff (h : a.isStackArgument = true) {n : ℕ} :
    stackWords a ≤ n ↔ a.disp + a.argumentBytes ≤ 16 + 8 * n := by
  have hdisp := sixteen_le_of_isStackArgument h
  have hbytes := a.eight_le_argumentBytes
  have hwords : stackWords a = ((a.disp - 16 + a.argumentBytes + 7) / 8).toNat := rfl
  omega

/-- A word above the return address, by its number. -/
lemma isStackArgument_of_disp {k : ℕ} (hbase : a.base = some .rbp) (hindex : a.index = none)
    (hdisp : a.disp = 16 + 8 * k) : a.isStackArgument = true := by
  rw [isStackArgument, hbase, hindex, hdisp]
  simp [Register.family, Register.rbp]

end Address

/-- One more address counts the words that it reaches, if it is one of a stack argument. -/
lemma noteStackArgument_eq_ok {name : String} {n n' : ℕ} {q : Instruction × Address}
    (h : noteStackArgument name n q = .ok n') :
    n' = if q.2.isStackArgument then max n (stackWords q.2) else n := by
  simp only [noteStackArgument] at h
  split_ifs at h with hstack hnarrow
  · rw [if_neg (by simpa using hstack)]
    exact (Except.ok.inj h).symm
  · rw [if_pos (by simpa using hstack)]
    exact (Except.ok.inj h).symm

/-- The words that a row of addresses reaches: the most that one of them does. -/
lemma foldlM_noteStackArgument {name : String} {as : List (Instruction × Address)} {n n' : ℕ}
    (h : as.foldlM (noteStackArgument name) n = .ok n') :
    n ≤ n' ∧ (∀ q ∈ as, q.2.isStackArgument = true → stackWords q.2 ≤ n') ∧
      (n' = n ∨ ∃ q ∈ as, q.2.isStackArgument = true ∧ stackWords q.2 = n') := by
  induction as generalizing n with
  | nil =>
    obtain rfl := pure_eq_ok.mp h
    exact ⟨le_rfl, (fun q hq => nomatch hq), .inl rfl⟩
  | cons p as ih =>
    rw [List.foldlM_cons, bind_eq_ok] at h
    obtain ⟨m, hm, h⟩ := h
    have hm := noteStackArgument_eq_ok hm
    obtain ⟨hle, hall, hattained⟩ := ih h
    have hattained : n' = m ∨ ∃ q ∈ p :: as, q.2.isStackArgument = true ∧ stackWords q.2 = n' :=
      hattained.imp_right fun ⟨q, hq, hwords⟩ => ⟨q, List.mem_cons_of_mem p hq, hwords⟩
    split_ifs at hm with hstack
    · refine ⟨by omega, List.forall_mem_cons.mpr ⟨fun _ => by omega, hall⟩, ?_⟩
      rcases hattained with heq | hq
      · rcases le_total n (stackWords p.2) with hwords | hwords
        · exact .inr ⟨p, List.mem_cons_self, hstack, by omega⟩
        · exact .inl (by omega)
      · exact .inr hq
    · refine ⟨by omega, List.forall_mem_cons.mpr ⟨fun h => absurd h hstack, hall⟩, ?_⟩
      exact hattained.imp_left fun heq => heq.trans hm

/-- The words that a body reaches are no more than a number exactly if all its accesses to stack
arguments end within so many words. -/
lemma SourceFunction.stackArguments_le_iff {f : SourceFunction} {n m : ℕ}
    (h : f.stackArguments = .ok n) :
    n ≤ m ↔ ∀ q ∈ f.addresses, q.2.isStackArgument = true →
      q.2.disp + q.2.argumentBytes ≤ 16 + 8 * m := by
  obtain ⟨-, hall, hattained⟩ := foldlM_noteStackArgument h
  constructor
  · intro hle q hq hstack
    exact (Address.stackWords_le_iff hstack).mp ((hall q hq hstack).trans hle)
  · intro hwithin
    rcases hattained with rfl | ⟨q, hq, hstack, rfl⟩
    · exact Nat.zero_le m
    · exact (Address.stackWords_le_iff hstack).mpr (hwithin q hq hstack)

/-! ## Words that are moved -/

namespace Signature

variable {s : Signature}

/-- The number of arguments that go to the stack. -/
def spills (s : Signature) : ℕ := (assignArguments s).countP (·.register?.isNone)

/-- Every word below the rank on the stack is that of an argument without a register. -/
lemma exists_of_lt_stackRank {n k : ℕ} (h : k < s.stackRank n) :
    ∃ j < n, s.argumentRegister? j = none ∧ s.stackRank j = k := by
  induction n with
  | zero => simp [stackRank] at h
  | succ n ih =>
    rw [stackRank_succ] at h
    by_cases hk : k < s.stackRank n
    · obtain ⟨j, hj, hrank⟩ := ih hk
      exact ⟨j, Nat.lt_succ_of_lt hj, hrank⟩
    · split_ifs at h with hnone
      · exact ⟨n, Nat.lt_succ_self n, Option.isNone_iff_eq_none.mp hnone, by omega⟩
      · exact absurd h hk

/-- The address is that of the word to which an argument without a register is moved before the
body is entered. -/
structure ReadsSpilled (s : Signature) (a : Address) (j : ℕ) : Prop where
  unregistered : s.argumentRegister? j = none
  address : ∀ base : Word, base + BitVec.ofInt 64 a.disp = spillAddress base (s.stackRank j)
  moved : ∀ l name pool lines, preamble (assignArguments s) l name pool = .ok lines →
    ∃ x ∈ assignArguments s, x.offset = 8 * j ∧ x.spill? = some (s.stackRank j) ∧
      spillArgument x <:+: lines
  /-- In every state in which the body may be entered the word is the argument. -/
  value : ∀ l p m t, EntryState s l p m t →
    t.mem.load (t.bp + BitVec.ofInt 64 a.disp) = m.argument p j

end Signature

/-- Arguments on the stack need a frame. -/
lemma framed_of_preamble {slots : List ArgSlot} {l : FrameLayout} {name : String}
    {pool : Option Register} {lines : List TargetInstruction}
    (h : preamble slots l name pool = .ok lines) {x : ArgSlot} (hx : x ∈ slots)
    (hnone : x.register? = none) : l.framed = true := by
  by_contra hframed
  have hspills : (!l.framed && slots.any (·.register?.isNone)) = true := by
    rw [Bool.and_eq_true, List.any_eq_true]
    exact ⟨by simpa using hframed, x, hx, by rw [hnone]; rfl⟩
  rw [preamble, hspills] at h
  cases h

/-- The lines before a body move every argument on the stack. -/
lemma spillArgument_infix {slots : List ArgSlot} {l : FrameLayout} {name : String}
    {pool : Option Register} {lines : List TargetInstruction}
    (h : preamble slots l name pool = .ok lines) {x : ArgSlot} (hx : x ∈ slots)
    (hnone : x.register? = none) : spillArgument x <:+: lines := by
  have hmoves : spillArgument x <:+: slots.flatMap spillArgument := by
    obtain ⟨front, back, rfl⟩ := List.append_of_mem hx
    exact ⟨front.flatMap spillArgument, back.flatMap spillArgument, by simp⟩
  have hframe : slots.flatMap spillArgument <:+: frameLines slots l := ⟨_, _, rfl⟩
  rw [preamble_eq_ok h, if_pos (framed_of_preamble h hx hnone)]
  exact (hmoves.trans hframe).trans ⟨_, _, rfl⟩

/-- An argument on the stack is read through the address of its word. -/
lemma Signature.readsSpilled {s : Signature} {a : Address} {j : ℕ} (hj : j < s.args.length)
    (hnone : s.argumentRegister? j = none) (hdisp : a.disp = 16 + 8 * (s.stackRank j : ℤ)) :
    s.ReadsSpilled a j := by
  have haddress : ∀ base : Word,
      base + BitVec.ofInt 64 a.disp = spillAddress base (s.stackRank j) := by
    intro base
    rw [hdisp, spillAddress]
    exact congrArg (base + ·) (BitVec.ofInt_natCast 64 (16 + 8 * s.stackRank j))
  refine ⟨hnone, haddress, ?_, ?_⟩
  · intro l name pool lines hlines
    obtain ⟨x, hx, hoffset, hplace⟩ := s.exists_slot hj
    refine ⟨x, hx, hoffset, (Signature.spill?_of_place hplace).mpr ⟨hnone, rfl⟩, ?_⟩
    exact spillArgument_infix hlines hx ((Signature.register?_of_place hplace).trans hnone)
  · intro l p m t hentry
    rw [haddress]
    exact hentry.stack j hj hnone

/-! ## Signatures of functions -/

/-- A signature passes its check, which leaves it as it is, if its types can be passed in
registers. -/
lemma Signature.validate_eq_ok_iff {s s' : Signature} :
    s.validate = .ok s' ↔ s' = s ∧ (∀ a ∈ s.args, a.class?.isSome = true) ∧
      ∀ r ∈ s.result, ∃ shape, ResultShape.ofKind r.kind = .ok (some shape) := by
  have hargs : s.args.findSome? s.argumentDefect? = none ↔
      ∀ a ∈ s.args, a.class?.isSome = true := by
    rw [List.findSome?_eq_none_iff]
    refine forall₂_congr fun a _ => ?_
    rw [argumentDefect?]
    cases a.class? <;> simp
  rw [← hargs, validate]
  cases s.args.findSome? s.argumentDefect? with
  | some d => simp
  | none =>
    cases s.result with
    | none => simp [eq_comm]
    | some r =>
      dsimp only
      split <;> rename_i hshape <;> simp [hshape, eq_comm]

/-- A function has the signature that is declared for it, once its words are counted, or else the
discovered one. -/
lemma resolveSignature_eq_ok {f : SourceFunction} {symbol : String} {prototypes : Prototypes}
    {s : Signature} (h : f.resolveSignature symbol prototypes = .ok s) :
    ((prototypes.find? symbol).or (prototypes.find? f.name) = some s ∧
      ∃ n, f.stackArguments = .ok n) ∨
    ((prototypes.find? symbol).or (prototypes.find? f.name) = none ∧
      f.discoverSignature symbol = .ok s) := by
  rw [SourceFunction.resolveSignature] at h
  cases hd : (prototypes.find? symbol).or (prototypes.find? f.name) with
  | some d =>
    rw [hd] at h
    obtain ⟨n, hn, h⟩ := bind_eq_ok.mp h
    obtain rfl := (Signature.validate_eq_ok_iff.mp h).1
    exact .inl ⟨rfl, n, hn⟩
  | none =>
    rw [hd] at h
    obtain ⟨s', hs', h⟩ := bind_eq_ok.mp h
    obtain rfl := (Signature.validate_eq_ok_iff.mp h).1
    exact .inr ⟨rfl, hs'⟩

/-- The signature that is found for a function passes its check. -/
lemma validate_of_resolveSignature {f : SourceFunction} {symbol : String} {prototypes : Prototypes}
    {s : Signature} (h : f.resolveSignature symbol prototypes = .ok s) : s.validate = .ok s := by
  rw [SourceFunction.resolveSignature] at h
  split at h
  all_goals
    obtain ⟨s', -, h⟩ := bind_eq_ok.mp h
    obtain rfl := (Signature.validate_eq_ok_iff.mp h).1
    exact h

/-- A discovered signature has as many arguments on the stack as the body reaches words. -/
lemma stackArguments_of_discoverSignature {f : SourceFunction} {name : String} {s : Signature}
    (h : f.discoverSignature name = .ok s) : f.stackArguments = .ok s.spills := by
  obtain ⟨found, name', a, b, c, -, hc, rfl, hfits, -, -⟩ := discoverSignature_eq_ok h
  rw [hc, Signature.spills, Signature.countP_assignArguments, Signature.length_discover,
    Signature.stackRank_discover hfits le_rfl, Nat.add_sub_cancel_left]

/-- The words that a body reaches above the return address, `n` by count, beside the arguments that
its signature has on the stack. -/
structure StackAgrees (f : SourceFunction) (declared : Option Signature) (s : Signature) (n : ℕ) :
    Prop where
  /-- A signature that is not declared has as many arguments on the stack as words are reached. -/
  discovered : declared = none → n = s.spills
  within : n ≤ s.spills ↔ ∀ q ∈ f.addresses, q.2.isStackArgument = true →
    q.2.disp + q.2.argumentBytes ≤ 16 + 8 * s.spills
  reads : n ≤ s.spills → ∀ q ∈ f.addresses, ∀ k : ℕ, q.2.base = some .rbp → q.2.index = none →
    q.2.disp = 16 + 8 * k → ∃ j < s.args.length, s.stackRank j = k ∧ s.ReadsSpilled q.2 j

/-- The words that a body reaches above the return address are counted for every function that has
a signature. A discovered signature has so many arguments on the stack. In general the accesses of
the body stay within the words of the arguments exactly if there are at least as many arguments on
the stack as words are counted, and then every access to such a word reads the argument that was
moved there. -/
theorem resolveSignature_stackAgrees {f : SourceFunction} {symbol : String}
    {prototypes : Prototypes} {s : Signature}
    (h : f.resolveSignature symbol prototypes = .ok s) :
    ∃ n, f.stackArguments = .ok n ∧
      StackAgrees f ((prototypes.find? symbol).or (prototypes.find? f.name)) s n := by
  obtain ⟨n, hn, hdiscovered⟩ : ∃ n, f.stackArguments = .ok n ∧
      ((prototypes.find? symbol).or (prototypes.find? f.name) = none → n = s.spills) := by
    rcases resolveSignature_eq_ok h with ⟨hdeclared, n, hn⟩ | ⟨-, hs⟩
    · exact ⟨n, hn, fun hnone => nomatch hdeclared.symm.trans hnone⟩
    · exact ⟨s.spills, stackArguments_of_discoverSignature hs, fun _ => rfl⟩
  refine ⟨n, hn, hdiscovered, f.stackArguments_le_iff hn, ?_⟩
  intro hle q hq k hbase hindex hdisp
  have hend := (f.stackArguments_le_iff hn).mp hle q hq
    (Address.isStackArgument_of_disp hbase hindex hdisp)
  have hbytes := q.2.eight_le_argumentBytes
  have hk : k < s.stackRank s.args.length := by
    rw [← s.countP_assignArguments, ← Signature.spills]
    omega
  obtain ⟨j, hj, hnone, rfl⟩ := Signature.exists_of_lt_stackRank hk
  exact ⟨j, hj, rfl, Signature.readsSpilled hj hnone hdisp⟩

/-- A function that is declared with seven integer arguments and reads the last one on the stack. -/
theorem resolveSignature_stackAgrees_of_seven_integers :
    let text := String.join [
      "f: push rbp\n", "mov rbp, rsp\n", "mov rax, [rbp + 16]\n", "leave\n", "ret\n"]
    let prototypes : Prototypes :=
      ⟨[{ name := "_f", args := ["a", "b", "c", "d", "e", "f", "g"].map fun n => ⟨n, "int"⟩ }]⟩
    Prototypes.read "func _f(a, b, c, d, e, f, g int)\n" = .ok prototypes ∧
      ∃ records functions, Source.readUnit text = .ok records ∧
        extractFunctions records = .ok functions ∧ ∃ f ∈ functions, ∃ s n,
          f.resolveSignature "_f" prototypes = .ok s ∧ f.stackArguments = .ok n ∧
          StackAgrees f ((prototypes.find? "_f").or (prototypes.find? f.name)) s n := by
  intro text prototypes
  obtain ⟨records, functions, hread, hextract, f, hf, hs⟩ :
      ∃ records functions, Source.readUnit text = .ok records ∧
        extractFunctions records = .ok functions ∧ ∃ f ∈ functions,
          (f.resolveSignature "_f" prototypes).toOption.any
            (fun s => decide (s.spills = 1)) = true :=
    exists_functions_of_any (by decide +kernel)
  obtain ⟨s, hs, -⟩ := exists_ok_of_any hs
  obtain ⟨n, hn, hagrees⟩ := resolveSignature_stackAgrees hs
  exact ⟨by decide +kernel, records, functions, hread, hextract, f, hf, s, n, hs, hn, hagrees⟩

/-- Two functions that read more than is moved. The first one is declared with one argument, which
goes to a register, and reads a word on the stack all the same. The second one loads a vector from
the stack: an access without a width counts as one word, and no more is moved. -/
theorem not_resolveSignature_within :
    let text := String.join [
      "f: push rbp\n", "mov rbp, rsp\n", "mov rax, [rbp + 16]\n", "pop rbp\n", "ret\n",
      "g: push rbp\n", "mov rbp, rsp\n", "movups xmm0, [rbp + 16]\n", "pop rbp\n", "ret\n"]
    let prototypes : Prototypes :=
      ⟨[{ name := "_f", args := [⟨"a", "int"⟩], result := some ⟨"r", "int"⟩ }]⟩
    Prototypes.read "func _f(a int) (r int)\n" = .ok prototypes ∧
      ∃ records functions, Source.readUnit text = .ok records ∧
        extractFunctions records = .ok functions ∧
        (∃ f ∈ functions, ∃ s, f.resolveSignature "_f" prototypes = .ok s ∧
          f.stackArguments = .ok 1 ∧ s.spills = 0) ∧
        ∃ g ∈ functions, ∃ s, g.resolveSignature "_g" prototypes = .ok s ∧ s.spills = 1 ∧
          ∃ q ∈ g.addresses, q.2.isStackArgument = true ∧
            (16 + 8 * s.spills : ℤ) < q.2.disp + vectorBits q.1 / 8 := by
  intro text prototypes
  obtain ⟨records, functions, hread, hextract, ⟨f, hf, hs, hn⟩, g, hg, hs', q, hq, hstack, hend⟩ :
      ∃ records functions, Source.readUnit text = .ok records ∧
        extractFunctions records = .ok functions ∧
        (∃ f ∈ functions,
          (f.resolveSignature "_f" prototypes).toOption.any
            (fun s => decide (s.spills = 0)) = true ∧
          f.stackArguments.toOption.any (fun n => decide (n = 1)) = true) ∧
        ∃ g ∈ functions,
          (g.resolveSignature "_g" prototypes).toOption.any
            (fun s => decide (s.spills = 1)) = true ∧
          ∃ q ∈ g.addresses, q.2.isStackArgument = true ∧
            (16 + 8 : ℤ) < q.2.disp + vectorBits q.1 / 8 :=
    exists_functions_of_any (by decide +kernel)
  obtain ⟨s, hs, hzero⟩ := exists_ok_of_any hs
  obtain ⟨n, hn, rfl⟩ := exists_ok_of_any hn
  obtain ⟨s', hs', hone⟩ := exists_ok_of_any hs'
  refine ⟨by decide +kernel, records, functions, hread, hextract, ⟨f, hf, s, hs, hn, hzero⟩,
    g, hg, s', hs', hone, q, hq, hstack, ?_⟩
  rw [hone]
  exact hend

end AsmBridge
