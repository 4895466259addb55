import AsmBridge.Abi.Discovery
import Mathlib.Data.List.Basic
import Mathlib.Data.List.Nodup
import Mathlib.Tactic.Common

/-!
# Where arguments go

The System V convention counts integer and vector arguments independently: an argument goes to the
register of its class whose number is its rank there, and to the stack, in the order of declaration,
once its class has run out of registers. This file states the convention by ranks and shows that
`assignArguments`, which deals the registers out one by one, follows it. Different arguments get
different places.
-/

namespace AsmBridge

/-- The argument registers of a class, in order. -/
def ArgClass.registers : ArgClass → List Register
  | .integer => Register.integerArguments
  | .float => Register.vectorArguments

namespace Signature

/-- The class of an argument by its number. -/
def class? (s : Signature) (j : ℕ) : Option ArgClass := s.args[j]?.bind (·.class?)

/-- The number of earlier arguments of a class. -/
def rank (s : Signature) (c : ArgClass) (j : ℕ) : ℕ :=
  (List.range j).countP fun i => s.class? i = some c

/-- The register of an argument, if one is left for its rank. -/
def argumentRegister? (s : Signature) (j : ℕ) : Option Register :=
  (s.class? j).bind fun c => c.registers[s.rank c j]?

/-- The number of earlier arguments on the stack. -/
def stackRank (s : Signature) (j : ℕ) : ℕ :=
  (List.range j).countP fun i => (s.argumentRegister? i).isNone

/-- The place of an argument. -/
def place (s : Signature) (j : ℕ) : ArgPlace :=
  match s.argumentRegister? j with
  | some r => .register r
  | none => .spill (s.stackRank j)

/-- What is left once so many arguments have their places. -/
def supplyAfter (s : Signature) (j : ℕ) : ArgSupply :=
  { integers := Register.integerArguments.drop (s.rank .integer j)
    floats := Register.vectorArguments.drop (s.rank .float j)
    spilled := s.stackRank j }

variable {s : Signature}

/-- A rank grows by the arguments of its class. -/
lemma rank_succ (s : Signature) (c : ArgClass) (j : ℕ) :
    s.rank c (j + 1) = s.rank c j + if s.class? j = some c then 1 else 0 := by
  simp [rank, List.range_succ, List.countP_append]

/-- The rank on the stack grows by the arguments without a register. -/
lemma stackRank_succ (s : Signature) (j : ℕ) :
    s.stackRank (j + 1) = s.stackRank j + if (s.argumentRegister? j).isNone then 1 else 0 := by
  simp [stackRank, List.range_succ, List.countP_append]

/-- Ranks do not decrease. -/
lemma rank_mono (s : Signature) (c : ArgClass) {i j : ℕ} (h : i ≤ j) : s.rank c i ≤ s.rank c j :=
  (List.range_sublist.mpr h).countP_le

/-- Ranks on the stack do not decrease. -/
lemma stackRank_mono (s : Signature) {i j : ℕ} (h : i ≤ j) : s.stackRank i ≤ s.stackRank j :=
  (List.range_sublist.mpr h).countP_le

/-! ## Dealing the registers out -/

/-- What is left of a list behind a member that exists. -/
lemma drop_of_getElem? {α : Type} {l : List α} {n : ℕ} {a : α} (h : l[n]? = some a) :
    l.drop n = a :: l.drop (n + 1) := by
  obtain ⟨hn, rfl⟩ := List.getElem?_eq_some_iff.mp h
  exact List.drop_eq_getElem_cons hn

/-- An argument without a register goes to the stack. -/
lemma place_of_none {j : ℕ} (h : s.argumentRegister? j = none) :
    s.place j = .spill (s.stackRank j) := by
  simp [place, h]

/-- An argument with a register goes there. -/
lemma place_of_some {j : ℕ} {r : Register} (h : s.argumentRegister? j = some r) :
    s.place j = .register r := by
  simp [place, h]

/-- An argument for which no register is left takes the next word on the stack. -/
lemma take_of_none {j : ℕ} (h : s.argumentRegister? j = none) :
    (s.supplyAfter j).take (s.class? j) =
      (.spill (s.stackRank j), { s.supplyAfter j with spilled := s.stackRank j + 1 }) := by
  cases hc : s.class? j with
  | none => rfl
  | some c =>
    rw [argumentRegister?, hc, Option.bind_some, List.getElem?_eq_none_iff,
      ← List.drop_eq_nil_iff] at h
    cases c <;> simp only [ArgClass.registers] at h <;> simp only [supplyAfter, ArgSupply.take, h]

/-- Behind an argument on the stack the registers that are left are the same. -/
lemma supplyAfter_succ_of_none {j : ℕ} (h : s.argumentRegister? j = none) :
    s.supplyAfter (j + 1) = { s.supplyAfter j with spilled := s.stackRank j + 1 } := by
  have hdrop : ∀ c : ArgClass,
      c.registers.drop (s.rank c (j + 1)) = c.registers.drop (s.rank c j) := by
    intro c
    by_cases hc : s.class? j = some c
    · rw [argumentRegister?, hc, Option.bind_some, List.getElem?_eq_none_iff] at h
      rw [rank_succ, if_pos hc, List.drop_eq_nil_of_le h, List.drop_eq_nil_of_le (by omega)]
    · rw [rank_succ, if_neg hc, Nat.add_zero]
  rw [supplyAfter, stackRank_succ, h]
  exact congrArg₂ (ArgSupply.mk · · _) (hdrop .integer) (hdrop .float)

/-- One argument takes the place that its ranks tell. -/
lemma take_supplyAfter (s : Signature) (j : ℕ) :
    (s.supplyAfter j).take (s.class? j) = (s.place j, s.supplyAfter (j + 1)) := by
  cases hr : s.argumentRegister? j with
  | none => rw [take_of_none hr, place_of_none hr, supplyAfter_succ_of_none hr]
  | some r =>
    obtain ⟨c, hc, hreg⟩ := Option.bind_eq_some_iff.mp hr
    have hint := s.rank_succ .integer j
    have hfloat := s.rank_succ .float j
    have hstack := s.stackRank_succ j
    have hdrop := drop_of_getElem? hreg
    rw [hc] at hint hfloat
    rw [hr] at hstack
    rw [place_of_some hr, hc, supplyAfter, supplyAfter, hint, hfloat, hstack]
    cases c <;> simp only [ArgClass.registers] at hdrop <;> simp [ArgSupply.take, hdrop]

/-- The slots from an argument on. -/
lemma assignFrom_supplyAfter (s : Signature) (rest : List Argument) (j : ℕ)
    (h : s.args.drop j = rest) :
    assignFrom (8 * j) (s.supplyAfter j) rest =
      (rest.zipIdx j).map fun p => ⟨p.1, 8 * p.2, s.place p.2⟩ := by
  induction rest generalizing j with
  | nil => rfl
  | cons a rest ih =>
    have hget : s.args[j]? = some a := by
      rw [← List.head?_drop, h, List.head?_cons]
    have hclass : a.class? = s.class? j := by rw [class?, hget, Option.bind_some]
    have hrest : s.args.drop (j + 1) = rest := by
      rw [← List.tail_drop, h, List.tail_cons]
    rw [assignFrom, hclass, take_supplyAfter]
    rw [List.zipIdx_cons, List.map_cons, ← ih (j + 1) hrest]
    rfl

/-- Every argument has the slot and the place that the convention gives it. -/
theorem assignArguments_eq (s : Signature) :
    assignArguments s = s.args.zipIdx.map fun p => ⟨p.1, 8 * p.2, s.place p.2⟩ :=
  assignFrom_supplyAfter s s.args 0 rfl

/-! ## Different arguments have different places -/

/-- An argument on the stack is counted by the later ones. -/
lemma stackRank_lt {i j : ℕ} (hi : s.argumentRegister? i = none) (h : i < j) :
    s.stackRank i < s.stackRank j := by
  have hsucc := s.stackRank_succ i
  have hmono : s.stackRank (i + 1) ≤ s.stackRank j := s.stackRank_mono h
  rw [hi] at hsucc
  simp only [Option.isNone_none, if_true] at hsucc
  omega

/-- An argument of a class is counted by the later ones. -/
lemma rank_lt {c : ArgClass} {i j : ℕ} (hi : s.class? i = some c) (h : i < j) :
    s.rank c i < s.rank c j := by
  have hsucc := s.rank_succ c i
  have hmono : s.rank c (i + 1) ≤ s.rank c j := s.rank_mono c h
  rw [if_pos hi] at hsucc
  omega

/-- Only the class of floating-point numbers has vector registers. -/
lemma isVector_of_mem_registers :
    ∀ c : ArgClass, ∀ r ∈ c.registers, r.isVector = decide (c = .float) := by
  intro c
  cases c <;> decide

/-- Both classes have different registers each, and none in common. -/
lemma registers_inj {c c' : ArgClass} {n n' : ℕ} {r : Register} (h : c.registers[n]? = some r)
    (h' : c'.registers[n']? = some r) : c = c' ∧ n = n' := by
  have hc := isVector_of_mem_registers c r (List.mem_of_getElem? h)
  have hc' := isVector_of_mem_registers c' r (List.mem_of_getElem? h')
  obtain rfl : c = c' := by
    cases c <;> cases c' <;> simp_all
  have hnodup : c.registers.Nodup := by cases c <;> decide
  obtain ⟨hn, hr⟩ := List.getElem?_eq_some_iff.mp h
  obtain ⟨hn', hr'⟩ := List.getElem?_eq_some_iff.mp h'
  exact ⟨rfl, (List.Nodup.getElem_inj_iff hnodup).mp (hr.trans hr'.symm)⟩

/-- An argument register belongs to one argument. -/
theorem argumentRegister?_inj {i j : ℕ} {r : Register} (hi : s.argumentRegister? i = some r)
    (hj : s.argumentRegister? j = some r) : i = j := by
  obtain ⟨c, hc, hr⟩ := Option.bind_eq_some_iff.mp hi
  obtain ⟨c', hc', hr'⟩ := Option.bind_eq_some_iff.mp hj
  obtain ⟨rfl, hrank⟩ := registers_inj hr hr'
  rcases Nat.lt_trichotomy i j with hlt | heq | hlt
  · exact absurd hrank (Nat.ne_of_lt (rank_lt hc hlt))
  · exact heq
  · exact absurd hrank (Nat.ne_of_gt (rank_lt hc' hlt))

/-! ## The slots -/

/-- A slot belongs to an argument. -/
lemma exists_of_mem_assignArguments {x : ArgSlot} (hx : x ∈ assignArguments s) :
    ∃ j < s.args.length, x.offset = 8 * j ∧ x.place = s.place j := by
  rw [assignArguments_eq] at hx
  obtain ⟨⟨a, j⟩, hmem, rfl⟩ := List.mem_map.mp hx
  obtain ⟨-, hj, -⟩ := List.mem_zipIdx hmem
  exact ⟨j, by simpa using hj, rfl, rfl⟩

/-- An argument has a slot. -/
lemma exists_slot {j : ℕ} (hj : j < s.args.length) :
    ∃ x ∈ assignArguments s, x.offset = 8 * j ∧ x.place = s.place j := by
  rw [assignArguments_eq]
  refine ⟨_, List.mem_map_of_mem (a := (s.args[j], j)) ?_, rfl, rfl⟩
  rw [List.mem_zipIdx_iff_getElem?]
  exact List.getElem?_eq_getElem hj

/-- Slots follow one another in the argument area. -/
lemma assignArguments_pairwise (s : Signature) :
    (assignArguments s).Pairwise fun x y => x.offset < y.offset := by
  rw [assignArguments_eq, List.pairwise_map, List.pairwise_iff_getElem]
  intro i j hi hj hij
  simp only [List.getElem_zipIdx]
  omega

/-- The register of a slot is that of its argument. -/
lemma register?_of_place {x : ArgSlot} {j : ℕ} (hx : x.place = s.place j) :
    x.register? = s.argumentRegister? j := by
  rw [ArgSlot.register?, hx, place]
  cases s.argumentRegister? j <;> rfl

/-- A slot has a word on the stack if its argument has no register. -/
lemma spill?_of_place {x : ArgSlot} {j n : ℕ} (hx : x.place = s.place j) :
    x.spill? = some n ↔ s.argumentRegister? j = none ∧ s.stackRank j = n := by
  rw [ArgSlot.spill?, hx, place]
  cases s.argumentRegister? j <;> simp

/-- The slots without a register are the arguments on the stack. -/
lemma countP_assignArguments (s : Signature) :
    (assignArguments s).countP (·.register?.isNone) = s.stackRank s.args.length := by
  have hslot : ∀ q : Argument × ℕ,
      (ArgSlot.mk q.1 (8 * q.2) (s.place q.2)).register? = s.argumentRegister? q.2 :=
    fun q => register?_of_place rfl
  have hrange : List.range s.args.length = s.args.zipIdx.map Prod.snd := by
    rw [List.zipIdx_map_snd, List.range_eq_range']
  rw [assignArguments_eq, stackRank, hrange, List.countP_map, List.countP_map]
  exact List.countP_congr fun q _ => by simp [hslot]

end Signature

end AsmBridge
