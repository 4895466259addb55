import AsmBridge.Proofs.Conversion.Faults
import AsmBridge.Proofs.Encoding.Totality
import AsmBridge.Proofs.Source.Numbers

/-!
# Instructions that are refused

An instruction of a unit is encoded with its operands as they are read, but for those at data, which
come to be relative to a register of 64 bits (`Operand.Rebased`). Whatever the register and the
displacement are, it has a code of at most fifteen bytes or is refused, and a refusal is a defect of
its function (`encode_ends`). Only an instruction with a number that cannot be shown ends otherwise,
and such an instruction can be read (`convertInstruction_stops_of_long`).
-/

namespace AsmBridge

/-- An operand and what may stand in its place when the instruction is encoded. -/
inductive Operand.Rebased : Operand → Operand → Prop
  /-- A datum is addressed from a register of 64 bits, with any displacement. -/
  | datum {a : Address} (n : Fin 16) (d : ℤ) (hrip : a.ripRelative = true) :
      Rebased (.mem a) (.mem (a.rebase (.gp .w64 n) d))
  /-- Every other operand stays. -/
  | other {o : Operand} (h : ∀ a ∈ o.address?, a.ripRelative = false) : Rebased o o

/-- Operands that are moved to a pool behind such a register are rebased. -/
lemma rebased_of_moved {pool : Pool} {r : Option Register} {ops ops' : List Operand}
    (hr : ∀ q ∈ r, ∃ n, q = .gp .w64 n) (h : List.Forall₂ (Operand.Moved pool r) ops ops') :
    List.Forall₂ Operand.Rebased ops ops' := by
  refine h.imp fun o o' hmoved => ?_
  cases hmoved with
  | datum hrip hq =>
    obtain ⟨n, rfl⟩ := hr _ hq
    exact .datum n _ hrip
  | other ho => exact .other ho

/-- An address among operands that are rebased has a shape that a unit can give it, and is not
relative to the instruction pointer. -/
lemma isReadable_of_rebased {ops ops' : List Operand} (h : List.Forall₂ Operand.Rebased ops ops')
    (hops : ∀ a, .mem a ∈ ops → a.IsReadable) {a : Address} (ha : .mem a ∈ ops') :
    a.IsReadable ∧ a.ripRelative = false := by
  induction h with
  | nil => cases ha
  | cons hfirst _ ih =>
    rcases List.mem_cons.mp ha with hhead | hrest
    · cases hfirst with
      | @datum b n d hrip =>
        obtain rfl := Operand.mem.inj hhead
        refine ⟨⟨(hops b List.mem_cons_self).bits, fun r hr => .inr ?_⟩, rfl⟩
        obtain rfl : r = .gp .w64 n := List.mem_singleton.mp hr
        rfl
      | other ho =>
        subst hhead
        exact ⟨hops a List.mem_cons_self, ho a rfl⟩
    · exact ih (fun b hb => hops b (List.mem_cons_of_mem _ hb)) hrest

/-- The instruction is a defect of its function: it is reported under the name of the function, with
its line and its mnemonic. -/
structure IsRefusedIn (c : UnitContext) (f : SourceFunction) (r : Option Register) (i : Instruction)
    (d : Diagnostic) : Prop where
  converted : convertInstruction c f r i = .ok (.error d)
  function : d.function = some f.name
  line : d.line = i.line
  construct : d.construct = some i.mnemonic
  kind : d.defect.kind = .instruction

/-- An instruction that is read, with its operands at data rebased, has a code of one to fifteen
bytes or is refused, unless a number among the operands cannot be shown. What the encoding refuses
is a defect of the function in which the instruction stands. -/
theorem encode_ends {line : Option ℕ} {s : List Char} {i : Instruction} {ops : List Operand}
    (hread : Source.readInstruction line s = .ok i)
    (hops : List.Forall₂ Operand.Rebased i.operands ops) :
    EncodesOrRefuses i.mnemonic i.mark ops ∧
      ∀ c f r, i.isEncoded = true → moveOperands c.pool r i.operands = .ok ops →
        ∀ e, encode i.mnemonic i.mark ops = .error e → e ≠ .immediateUnwritable →
          IsRefusedIn c f r i (i.refusal f e) := by
  have hreadable : ∀ a, .mem a ∈ i.operands → a.IsReadable := fun a ha =>
    Source.readInstruction_isReadable hread a (List.mem_filterMap.mpr ⟨_, ha, rfl⟩)
  have hends : EncodesOrRefuses i.mnemonic i.mark ops :=
    encodesOrRefuses (fun a ha => isReadable_of_rebased hops hreadable ha) i.mnemonic i.mark
  refine ⟨hends, fun c f r henc hmove e he hshown => ⟨?_, rfl, rfl, rfl, rfl⟩⟩
  have hrefused : e.isRefusal = true := (hends.refused e he).resolve_right hshown
  rw [convertInstruction_eq henc]
  refine bind_eq_ok.mpr ⟨ops, hmove, ?_⟩
  rw [encodeItems, he]
  dsimp only
  rw [if_pos hrefused]
  rfl

/-- The addition of data to a vector register, for which the table has no form, is a defect also
where the data lie behind `r12`. -/
theorem encode_ends_of_vector :
    let pool : Pool := { slots := [⟨{ symbol := "t" }, 1⟩] }
    let ops : List Operand :=
      [.reg (.xmm 0), .mem { base := some (.gp .w64 12), disp := 8 }]
    ∃ i, Source.readInstruction (some 3) "add xmm0, [rip + t + 8]".toList = .ok i ∧
      moveOperands pool (some (.gp .w64 12)) i.operands = .ok ops ∧
      EncodesOrRefuses i.mnemonic i.mark ops ∧
      ∀ o h f, IsRefusedIn ⟨o, h, pool⟩ f (some (.gp .w64 12)) i
        (i.refusal f (.noForm "add" ["xmm", "m"])) := by
  intro pool ops
  obtain ⟨i, hread, henc, hmove, hcode⟩ : ∃ i,
      Source.readInstruction (some 3) "add xmm0, [rip + t + 8]".toList = .ok i ∧
        i.isEncoded = true ∧ rebaseOperands pool (.gp .w64 12) i.operands = .ok ops ∧
        encode i.mnemonic i.mark ops = .error (.noForm "add" ["xmm", "m"]) :=
    exists_ok_of_any (by decide +kernel)
  have hpool : moveOperands pool (some (.gp .w64 12)) i.operands = .ok ops :=
    mapError_eq_ok.mpr hmove
  have hops : List.Forall₂ Operand.Rebased i.operands ops :=
    rebased_of_moved (fun q hq => ⟨12, (Option.some.inj hq).symm⟩) (rebaseOperands_eq_ok hmove)
  obtain ⟨hends, hconverts⟩ := encode_ends hread hops
  refine ⟨i, hread, hpool, hends, fun o h f => ?_⟩
  exact hconverts ⟨o, h, pool⟩ f _ henc hpool _ hcode (by decide)

/-- An addition of a number below zero with more than 4300 digits. It is read, but it is neither
encoded nor refused, and the function has no defect: its unit is given up. -/
theorem convertInstruction_stops_of_long :
    ∃ i, Source.readInstruction none
        ("add rax, -0x".toList ++ Text.hexDigits 1 (16 ^ 3600 + 2 ^ 40)) = .ok i ∧
      List.Forall₂ Operand.Rebased i.operands i.operands ∧ i.isEncoded = true ∧
      encode i.mnemonic i.mark i.operands = .error .immediateUnwritable ∧
      EncodeError.immediateUnwritable.isRefusal = false ∧
      ∀ c f, convertInstruction c f none i = .error (.encoding .immediateUnwritable) := by
  obtain ⟨i, hread, hmnemonic, hmark, hoperands⟩ :=
    Source.readInstruction_negative none 1 (16 ^ 3600 + 2 ^ 40)
  have hnumber : i.operands = [.reg .rax, .imm unwritableNumber] := by
    have hcast : ∀ m n : ℕ, -((16 ^ m + 2 ^ n : ℕ) : ℤ) = -(16 ^ m + 2 ^ n) := by simp
    rw [hoperands, hcast]
    rfl
  have hrebased : List.Forall₂ Operand.Rebased i.operands i.operands := by
    rw [hnumber, List.forall₂_same]
    intro o ho
    refine .other fun a ha => ?_
    simp only [List.mem_cons, List.not_mem_nil, or_false] at ho
    rcases ho with rfl | rfl <;> cases ha
  have henc : i.isEncoded = true := by
    rw [Instruction.isEncoded, Instruction.jumpName?, Instruction.isCall, Draft.clearsUpper,
      hmnemonic]
    decide
  have hfirst : FirstUnwritable i.operands := by
    have hwritable : unwritableNumber < 0 ∧ Text.isWritable unwritableNumber = false := by
      decide +kernel
    refine ⟨[.reg .rax], .imm unwritableNumber, [], hnumber, ?_, ?_⟩
    · intro o ho
      obtain rfl := List.mem_singleton.mp ho
      exact ⟨_, rfl⟩
    · exact ⟨_, hwritable.1, rfl, hwritable.2⟩
  have hcode : encode i.mnemonic i.mark i.operands = .error .immediateUnwritable := by
    rw [hmnemonic]
    exact encode_eq_unwritable rfl hfirst
  refine ⟨i, hread, hrebased, henc, hcode, rfl, fun c f => ?_⟩
  rw [convertInstruction_eq henc]
  change encodeItems f i i.operands = _
  rw [encodeItems, hcode]
  rfl

end AsmBridge
