import AsmBridge.Proofs.Abi.Arguments
import AsmBridge.Proofs.Outcome
import Mathlib.Data.Int.Notation

/-!
# Signatures without a declaration

The signature that is made up for a body has its integer arguments first, then its vector arguments,
then those on the stack. As long as no class is asked for more arguments than it has registers, and
for words on the stack only once all integer registers are used, every argument has the place that
it was made up for.
-/

namespace AsmBridge

namespace Signature

variable {name : String} {a b c : ℕ}

/-- The arguments of a signature that is made up are those asked for. -/
@[simp] lemma length_discover : (discover name a b c).args.length = a + b + c := by
  simp only [discover, List.length_map, List.length_range]
  omega

/-- The arguments of the second part are vector arguments, the others integers. -/
lemma class?_discover {j : ℕ} (hj : j < a + b + c) :
    (discover name a b c).class? j = some (if a ≤ j ∧ j < a + b then .float else .integer) := by
  have hrange : (List.range ((a : ℤ) + b + c).toNat)[j]? = some j := by
    rw [List.getElem?_range (by omega)]
  have hpart : ((a : ℤ) ≤ (j : ℤ) ∧ (j : ℤ) < a + b) ↔ a ≤ j ∧ j < a + b := by omega
  rw [class?, discover, List.getElem?_map, hrange, Option.map_some, Option.bind_some,
    Argument.class?]
  simp only [Bool.and_eq_true, decide_eq_true_eq, hpart]
  split_ifs <;> decide +kernel

/-- The vector arguments in front of an argument, and the integer arguments in front of it. -/
lemma rank_discover {j : ℕ} (hj : j ≤ a + b + c) :
    (discover name a b c).rank .float j = min (j - a) b ∧
      (discover name a b c).rank .integer j = j - min (j - a) b := by
  induction j with
  | zero => simp [rank]
  | succ j ih =>
    obtain ⟨hfloat, hinteger⟩ := ih (by omega)
    rw [rank_succ, rank_succ, hfloat, hinteger, class?_discover (by omega)]
    split_ifs with hpart <;> simp_all <;> omega

/-- The integer arguments have the integer registers in order. -/
lemma argumentRegister?_discover_integer {j : ℕ} (hj : j < a) :
    (discover name a b c).argumentRegister? j = Register.integerArguments[j]? := by
  rw [argumentRegister?, class?_discover (by omega), if_neg (by omega), Option.bind_some,
    (rank_discover (by omega)).2]
  congr 1
  omega

/-- The vector arguments have the vector registers in order. -/
lemma argumentRegister?_discover_float {j : ℕ} (hj : j < b) :
    (discover name a b c).argumentRegister? (a + j) = Register.vectorArguments[j]? := by
  rw [argumentRegister?, class?_discover (by omega), if_pos (by omega), Option.bind_some,
    (rank_discover (by omega)).1]
  congr 1
  omega

/-- Numbers of arguments that their registers allow: a class has no more arguments than registers,
and arguments are on the stack only once all integer registers are used. -/
structure Fits (a b c : ℕ) : Prop where
  integers : a ≤ Register.integerArguments.length
  floats : b ≤ Register.vectorArguments.length
  stack : c = 0 ∨ a = Register.integerArguments.length

/-- Only the arguments of the third part have no register. -/
lemma argumentRegister?_discover_isNone (h : Fits a b c) {j : ℕ} (hj : j < a + b + c) :
    ((discover name a b c).argumentRegister? j).isNone = decide (a + b ≤ j) := by
  obtain ⟨ha, hb, hc⟩ := h
  rcases Nat.lt_or_ge j a with hja | hja
  · rw [argumentRegister?_discover_integer hja, decide_eq_false (by omega),
      List.getElem?_eq_getElem (by omega)]
    rfl
  rcases Nat.lt_or_ge j (a + b) with hjb | hjb
  · obtain ⟨j, rfl⟩ := Nat.exists_eq_add_of_le hja
    rw [argumentRegister?_discover_float (by omega), decide_eq_false (by omega),
      List.getElem?_eq_getElem (by omega)]
    rfl
  · rw [argumentRegister?, class?_discover hj, if_neg (by omega), Option.bind_some,
      (rank_discover (by omega)).2, decide_eq_true hjb, Option.isNone_iff_eq_none,
      List.getElem?_eq_none_iff]
    simp only [ArgClass.registers]
    omega

/-- The arguments on the stack in front of an argument are those of the third part. -/
lemma stackRank_discover (h : Fits a b c) {j : ℕ} (hj : j ≤ a + b + c) :
    (discover name a b c).stackRank j = j - (a + b) := by
  induction j with
  | zero => simp [stackRank]
  | succ j ih =>
    rw [stackRank_succ, ih (by omega), argumentRegister?_discover_isNone h (by omega)]
    simp only [decide_eq_true_eq]
    split_ifs <;> omega

end Signature

/-! ## The numbers of a body -/

section Count

variable {name : String} {c : ArgClass} {registers : List Register} {found : List FirstAccess}

/-- One register more leaves the number of arguments or sets it behind the register, the latter if
the first access to its family is a read. -/
lemma noteArgument_eq_ok {n n' : ℕ} {p : Register × ℕ}
    (h : noteArgument name c found n p = .ok n') :
    (n' = n ∧ ∀ a, found.find? (·.family == p.1.family) = some a → a.isRead = false) ∨
      n' = p.2 + 1 := by
  rw [noteArgument] at h
  split at h
  · rename_i a ha
    split_ifs at h with hread
    · refine .inl ⟨(Except.ok.inj h).symm, fun a' ha' => ?_⟩
      obtain rfl : a = a' := Option.some.inj (ha.symm.trans ha')
      simpa using hread
    · split at h
      · cases h
      · exact .inr (Except.ok.inj h).symm
  · rename_i hnone
    exact .inl ⟨(Except.ok.inj h).symm, fun a ha => nomatch hnone.symm.trans ha⟩

/-- From a position on, the number of arguments stays within the registers, never decreases and
counts every register that is read first. -/
lemma count_from {k n n' : ℕ} (hn : n ≤ k)
    (h : (registers.zipIdx k).foldlM (noteArgument name c found) n = .ok n') :
    n ≤ n' ∧ n' ≤ k + registers.length ∧ ∀ j r a, registers[j]? = some r →
      found.find? (·.family == r.family) = some a → a.isRead = true → k + j < n' := by
  induction registers generalizing k n with
  | nil =>
    obtain rfl := pure_eq_ok.mp h
    exact ⟨Nat.le_refl _, hn, fun j r a hr => nomatch hr⟩
  | cons r rest ih =>
    rw [List.zipIdx_cons, List.foldlM_cons] at h
    obtain ⟨m, hm, h⟩ := bind_eq_ok.mp h
    have hstep := noteArgument_eq_ok hm
    dsimp only at hstep
    obtain ⟨hle, hbound, hcounts⟩ := ih (k := k + 1) (by omega) h
    refine ⟨by omega, by simp only [List.length_cons]; omega, ?_⟩
    rintro (_ | j) q a hq ha hread
    · obtain rfl : r = q := Option.some.inj hq
      rcases hstep with ⟨-, hwrites⟩ | hmk
      · exact absurd (hread.symm.trans (hwrites a ha)) (by decide)
      · omega
    · have := hcounts j q a hq ha hread
      omega

/-- The arguments of a class have registers, among them all that are read first. -/
lemma countArguments_spec {n : ℕ} (h : countArguments name c registers found = .ok n) :
    n ≤ registers.length ∧ ∀ j r a, registers[j]? = some r →
      found.find? (·.family == r.family) = some a → a.isRead = true → j < n := by
  obtain ⟨-, hbound, hcounts⟩ := count_from (Nat.le_refl _) h
  refine ⟨by omega, fun j r a hr ha hread => ?_⟩
  have := hcounts j r a hr ha hread
  omega

end Count

/-- A signature that is discovered is made up from numbers of arguments that fit: those of both
classes count all registers that are read first, unless it is all of them, and those on the stack
are the words that the body reaches. -/
lemma discoverSignature_eq_ok {f : SourceFunction} {name : String} {s : Signature}
    (h : f.discoverSignature name = .ok s) :
    ∃ found name' a b c, f.firstAccesses = .ok found ∧ f.stackArguments = .ok c ∧
      s = Signature.discover name' (a : ℕ) (b : ℕ) (c : ℕ) ∧ Signature.Fits a b c ∧
      (∀ j r x, Register.integerArguments[j]? = some r →
        found.find? (·.family == r.family) = some x → x.isRead = true → j < a) ∧
      ∀ j r x, Register.vectorArguments[j]? = some r →
        found.find? (·.family == r.family) = some x → x.isRead = true → j < b := by
  obtain ⟨found, hfound, h⟩ := bind_eq_ok.mp h
  obtain ⟨a, ha, h⟩ := bind_eq_ok.mp h
  obtain ⟨b, hb, h⟩ := bind_eq_ok.mp h
  obtain ⟨c, hc, h⟩ := bind_eq_ok.mp h
  obtain ⟨hale, hareads⟩ := countArguments_spec ha
  obtain ⟨hble, hbreads⟩ := countArguments_spec hb
  have heq := (pure_eq_ok.mp h).symm
  by_cases hzero : c = 0
  · rw [if_pos hzero] at heq
    exact ⟨found, _, a, b, c, hfound, hc, heq, ⟨hale, hble, .inl hzero⟩, hareads, hbreads⟩
  · rw [if_neg hzero] at heq
    refine ⟨found, _, _, b, c, hfound, hc, heq, ⟨Nat.le_refl _, hble, .inr rfl⟩, ?_, hbreads⟩
    intro j r x hr _ _
    exact (List.getElem?_eq_some_iff.mp hr).1

end AsmBridge
