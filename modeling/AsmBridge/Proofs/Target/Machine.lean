import AsmBridge.Target.Instruction
import AsmBridge.Binary.Word
import Mathlib.Algebra.Group.Nat.Defs
import Mathlib.Logic.Function.Basic
import Mathlib.Tactic.Common

/-!
# A machine for the lines around a body

The lines that enter and leave a body move words between registers and memory and compute
addresses. This file gives them a meaning: registers of 64 and of 256 bits, a memory of bytes, and
one step for each instruction that the lines before a body consist of.

Arithmetic on addresses is that of words, so it may wrap. A slot of the argument area is addressed
from the stack pointer as it is when the instruction runs, since the distance between the two is
fixed when the frame is laid out: once the stack pointer has moved, the slots are out of reach.
-/

namespace AsmBridge

/-- A word of the machine, also used as an address. -/
abbrev Word := BitVec 64

/-- A memory of bytes. -/
abbrev Memory := Word → UInt8

namespace Memory

/-- The word at an address, its low byte first. -/
def load (m : Memory) (a : Word) : Word :=
  BitVec.ofNat 64 (ofLittleEndian ((List.range 8).map fun i => m (a + BitVec.ofNat 64 i)))

/-- The memory with a word stored at an address. -/
def store (m : Memory) (a v : Word) : Memory :=
  fun x => ((littleEndian 8 v.toNat)[(x - a).toNat]?).getD (m x)

/-- Storing a word changes eight bytes only. -/
lemma store_apply_of_le (m : Memory) (a v x : Word) (h : 8 ≤ (x - a).toNat) :
    m.store a v x = m x := by
  have hlen : (littleEndian 8 v.toNat).length ≤ (x - a).toNat := by simpa using h
  rw [store, List.getElem?_eq_none hlen, Option.getD_none]

/-- The bytes of a word that has been stored. -/
lemma store_apply_add (m : Memory) (a v : Word) {i : ℕ} (hi : i < 8) :
    m.store a v (a + BitVec.ofNat 64 i) =
      (littleEndian 8 v.toNat).get ⟨i, by simpa using hi⟩ := by
  have hdiff : (a + BitVec.ofNat 64 i - a).toNat = i := by bv_omega
  have hlen : i < (littleEndian 8 v.toNat).length := by simpa using hi
  rw [store, hdiff, List.getElem?_eq_getElem hlen, Option.getD_some, List.get_eq_getElem]

/-- What has been stored is loaded. -/
lemma load_store (m : Memory) (a v : Word) : (m.store a v).load a = v := by
  have hbytes : (List.range 8).map (fun i => m.store a v (a + BitVec.ofNat 64 i)) =
      littleEndian 8 v.toNat := by
    apply List.ext_getElem
    · simp
    · intro i h₁ h₂
      have hi : i < 8 := by simpa using h₁
      simp only [List.getElem_map, List.getElem_range]
      exact store_apply_add m a v hi
  rw [load, hbytes, ofLittleEndian_littleEndian]
  apply BitVec.eq_of_toNat_eq
  have hv := v.isLt
  simp only [BitVec.toNat_ofNat]
  omega

/-- A word depends on its eight bytes only. -/
lemma load_congr {m m' : Memory} {a : Word}
    (h : ∀ i < 8, m (a + BitVec.ofNat 64 i) = m' (a + BitVec.ofNat 64 i)) :
    m.load a = m'.load a := by
  have hbytes : (List.range 8).map (fun i => m (a + BitVec.ofNat 64 i)) =
      (List.range 8).map (fun i => m' (a + BitVec.ofNat 64 i)) :=
    List.map_congr_left fun i hi => h i (List.mem_range.mp hi)
  rw [load, load, hbytes]

/-- The words at two addresses have no byte in common, and neither wraps. -/
def Apart (a b : Word) : Prop :=
  a.toNat + 8 ≤ 2 ^ 64 ∧ b.toNat + 8 ≤ 2 ^ 64 ∧
    (a.toNat + 8 ≤ b.toNat ∨ b.toNat + 8 ≤ a.toNat)

/-- The bytes of a word are beyond a word apart from it. -/
lemma Apart.le_sub {a b : Word} (h : Apart a b) {i : ℕ} (hi : i < 8) :
    8 ≤ (b + BitVec.ofNat 64 i - a).toNat := by
  obtain ⟨ha, hb, hab⟩ := h
  rcases hab with hab | hab <;> bv_omega

/-- Storing a word leaves the words apart from it as they are. -/
lemma load_store_of_apart (m : Memory) {a b : Word} (v : Word) (h : Apart a b) :
    (m.store a v).load b = m.load b :=
  load_congr fun _ hi => store_apply_of_le m a v _ (h.le_sub hi)

end Memory

/-- A register that holds a word: a whole general-purpose register or a vector register, of which
the low part is meant. -/
def Register.isWord : Register → Bool
  | .gp .w64 _ => true
  | .xmm _ => true
  | _ => false

/-- Registers and memory, as far as the lines around a body concern them. -/
structure Machine where
  /-- The general-purpose registers by number. -/
  gp : Fin 16 → Word
  /-- The vector registers by number. -/
  vec : Fin 16 → BitVec 256
  mem : Memory

namespace Machine

/-- The stack pointer. -/
def sp (s : Machine) : Word := s.gp 4

/-- The frame pointer. -/
def bp (s : Machine) : Word := s.gp 5

/-- The word in a register; of a vector register the low one. -/
def word? (s : Machine) : Register → Option Word
  | .gp .w64 n => some (s.gp n)
  | .xmm n => some ((s.vec n).setWidth 64)
  | _ => none

/-- The machine with a word in a general-purpose register. -/
def setGp (s : Machine) (n : Fin 16) (v : Word) : Machine :=
  { s with gp := Function.update s.gp n v }

/-- The machine with a word in the low part of a vector register. Up to the width of the smaller
vector registers the rest is cleared, beyond it is kept. -/
def setVec (s : Machine) (n : Fin 16) (v : Word) : Machine :=
  { s with vec := Function.update s.vec n (s.vec n >>> 128 <<< 128 ||| v.setWidth 256) }

/-- The machine with a word in memory. -/
def setMem (s : Machine) (a v : Word) : Machine := { s with mem := s.mem.store a v }

@[simp] lemma setGp_gp (s : Machine) (n : Fin 16) (v : Word) :
    (s.setGp n v).gp = Function.update s.gp n v := rfl
@[simp] lemma setGp_vec (s : Machine) (n : Fin 16) (v : Word) : (s.setGp n v).vec = s.vec := rfl
@[simp] lemma setGp_mem (s : Machine) (n : Fin 16) (v : Word) : (s.setGp n v).mem = s.mem := rfl
@[simp] lemma setVec_gp (s : Machine) (n : Fin 16) (v : Word) : (s.setVec n v).gp = s.gp := rfl
@[simp] lemma setVec_mem (s : Machine) (n : Fin 16) (v : Word) : (s.setVec n v).mem = s.mem := rfl
@[simp] lemma setMem_gp (s : Machine) (a v : Word) : (s.setMem a v).gp = s.gp := rfl
@[simp] lemma setMem_vec (s : Machine) (a v : Word) : (s.setMem a v).vec = s.vec := rfl
@[simp] lemma setMem_mem (s : Machine) (a v : Word) : (s.setMem a v).mem = s.mem.store a v := rfl

@[simp] lemma setGp_setGp (s : Machine) (n : Fin 16) (v w : Word) :
    (s.setGp n v).setGp n w = s.setGp n w := by
  simp [setGp]

@[simp] lemma word?_setVec_self (s : Machine) (n : Fin 16) (v : Word) :
    (s.setVec n v).word? (.xmm n) = some v := by
  simp only [word?, setVec, Function.update_self, Option.some.injEq]
  ext i hi
  simp

lemma word?_setVec_of_ne (s : Machine) {n : Fin 16} {q : Register} (v : Word) (h : q ≠ .xmm n) :
    (s.setVec n v).word? q = s.word? q := by
  unfold word?
  split
  · rfl
  · rename_i k
    have hk : k ≠ n := fun hk => h (congrArg Register.xmm hk)
    simp [setVec, Function.update_of_ne hk]
  · rfl

@[simp] lemma word?_setGp_self (s : Machine) (n : Fin 16) (v : Word) :
    (s.setGp n v).word? (.gp .w64 n) = some v := by
  simp [word?]

lemma word?_setGp_of_ne (s : Machine) {n : Fin 16} {q : Register} (v : Word)
    (h : q ≠ .gp .w64 n) : (s.setGp n v).word? q = s.word? q := by
  unfold word?
  split
  · rename_i k
    have hk : k ≠ n := fun hk => h (congrArg (Register.gp .w64) hk)
    rw [setGp_gp, Function.update_of_ne hk]
  · rfl
  · rfl

/-- Machines with the same word in a register that holds one have the same stack pointer. -/
lemma sp_congr {s t : Machine} (h : t.word? .rsp = s.word? .rsp) : t.sp = s.sp := Option.some.inj h

lemma bp_congr {s t : Machine} (h : t.word? .rbp = s.word? .rbp) : t.bp = s.bp := Option.some.inj h

end Machine

/-- What is settled when a unit is linked: where the argument area and the data of the unit lie. -/
structure Placement where
  /-- The distance of the argument area from the stack pointer that a function is entered with. -/
  args : Word
  /-- The addresses of the data of the unit. -/
  datum : String → Word

/-- The address at an offset of the argument area, as seen with a stack pointer. -/
def Placement.slot (p : Placement) (sp : Word) (offset : ℕ) : Word :=
  sp + p.args + BitVec.ofNat 64 offset

namespace TargetOperand

/-- The address of an operand in memory. -/
def address? (p : Placement) (s : Machine) : TargetOperand → Option Word
  | .arg _ offset => some (p.slot s.sp offset)
  | .at (.gp .w64 n) offset => some (s.gp n + BitVec.ofNat 64 offset)
  | _ => none

/-- The word that an operand holds. -/
def read? (p : Placement) (s : Machine) : TargetOperand → Option Word
  | .reg r => s.word? r
  | o => (o.address? p s).map s.mem.load

/-- The machine after a word is written to an operand. -/
def write? (p : Placement) (s : Machine) (v : Word) : TargetOperand → Option Machine
  | .reg (.gp .w64 n) => some (s.setGp n v)
  | .reg (.xmm n) => some (s.setVec n v)
  | o => (o.address? p s).map fun a => s.setMem a v

/-- A register that holds a word takes it, and nothing else changes. -/
lemma exists_write? {r : Register} (hr : r.isWord = true) (p : Placement) (s : Machine)
    (v : Word) :
    ∃ t, (TargetOperand.reg r).write? p s v = some t ∧ t.mem = s.mem ∧ t.word? r = some v ∧
      ∀ q ≠ r, t.word? q = s.word? q := by
  match r, hr with
  | .gp .w64 n, _ =>
    exact ⟨s.setGp n v, rfl, rfl, s.word?_setGp_self n v, fun q hq => s.word?_setGp_of_ne v hq⟩
  | .xmm n, _ =>
    exact ⟨s.setVec n v, rfl, rfl, s.word?_setVec_self n v, fun q hq => s.word?_setVec_of_ne v hq⟩

/-- The operand is in memory. -/
def isMemory : TargetOperand → Bool
  | .reg _ => false
  | _ => true

end TargetOperand

namespace TargetInstruction

/-- One step of the machine. Instructions that the lines before a body do not use have none, nor
has a move of 64 bits between vector registers, which merges. -/
def step? (p : Placement) (s : Machine) : TargetInstruction → Option Machine
  | .movq source dest => (source.read? p s).bind fun v => dest.write? p s v
  | .movsd source dest =>
    if source.isMemory || dest.isMemory then (source.read? p s).bind fun v => dest.write? p s v
    else none
  | .addq n (.gp .w64 r) => some (s.setGp r (s.gp r + BitVec.ofInt 64 n))
  | .andq n (.gp .w64 r) => some (s.setGp r (s.gp r &&& BitVec.ofInt 64 (-n)))
  | .leaq symbol (.gp .w64 r) => some (s.setGp r (p.datum symbol))
  | _ => none

/-- The steps of instructions one after another. -/
def run (p : Placement) (s : Machine) (is : List TargetInstruction) : Option Machine :=
  is.foldlM (step? p) s

@[simp] lemma run_nil (p : Placement) (s : Machine) : run p s [] = some s := rfl

@[simp] lemma run_cons (p : Placement) (s : Machine) (i : TargetInstruction)
    (is : List TargetInstruction) : run p s (i :: is) = (i.step? p s).bind fun t => run p t is := rfl

lemma run_append {p : Placement} {s t : Machine} {is : List TargetInstruction}
    (h : run p s is = some t) (js : List TargetInstruction) :
    run p s (is ++ js) = run p t js := by
  rw [run, List.foldlM_append]
  change (run p s is).bind (fun t => run p t js) = run p t js
  rw [h, Option.bind_some]

end TargetInstruction

end AsmBridge
