import AsmBridge.Proofs.Conversion.Paths
import AsmBridge.Proofs.Conversion.Unit

/-!
# Relocation of constant data

In a converted unit every address relative to the instruction pointer has become an address in the
constant pool. `IsRelocated` collects what this takes of one function: the operands that were
encoded, the place of the data in the pool, and the register that holds the address of the pool
wherever one of these operands is used. Every function of a converted unit is relocated
(`convert_isRelocated`).

Three things are left out, and a unit that shows all of them follows the theorem: an instruction
that clears the upper halves of the vector registers is written without the operands that a source
may give it, a label that stands at several places of the read-only data may find the data of one
place in the pool and name those of another, and the bytes of a data directive in a body are taken
over without regard to what they do.
-/

namespace AsmBridge

/-- The lines of a converted function find the data of the unit in the pool, whose address is in the
register `q` where the function has references. -/
structure IsRelocated (x : DataIndex) (pool : Pool) (f : ConvertedFunction) (q : Option Register)
    (lines : List Line) : Prop where
  items : lines.map Line.item = f.items
  /-- The machine code is that of the instructions of the body, in order. -/
  kept : lines.filterMap Line.kept? = f.source.instructions.filter Instruction.isEncoded
  /-- It encodes them with the operands moved to the pool. -/
  encoded : ∀ i ops bytes, Line.kept i ops bytes ∈ lines →
    List.Forall₂ (Operand.Moved pool q) i.operands ops ∧
      encode i.mnemonic i.mark ops = .ok bytes
  /-- None of them is left relative to the instruction pointer. -/
  absolute : ∀ i ops bytes, Line.kept i ops bytes ∈ lines →
    ∀ o ∈ ops, ∀ a ∈ o.address?, a.ripRelative = false
  /-- An address relative to the instruction pointer is one of an instruction that is encoded, and
  the pool has the data of its symbol at the offset of the symbol. -/
  data : ∀ i ∈ f.source.instructions, Draft.clearsUpper i = false →
    ∀ a ∈ i.addresses, a.ripRelative = true → i.isEncoded = true ∧
      ∃ symbol n b, a.symbol = some symbol ∧ pool.offset? (some symbol) = some n ∧
        x.lookup (some symbol) = .ok b ∧
        (x.LabelsOnce symbol → (pool.data.drop n).take b.data.length = b.data)
  register : (f.source.references = [] ∧ q = none) ∨
    ∃ r, q = some r ∧ f.source.poolRegister = .ok r
  /-- The lines before the body end in the load of the pool address. -/
  entry : ∃ entry body, lines = entry.map Line.native ++ body ∧
    preamble (assignArguments f.signature) f.layout pool.name q = .ok entry ∧
    ∀ r ∈ q, entry.getLast? = some (.leaq pool.name r)
  /-- So does every call. -/
  calls : ∀ r ∈ q, CallsFollowedBy (.leaq pool.name r) lines
  /-- No instruction of the body names a register of the same storage or is reported to use one. -/
  free : ∀ r ∈ q, ∀ i ∈ f.source.instructions, ∃ a, Access.ofInstruction i = .ok a ∧
    ∀ w ∈ i.registers ++ a.reads ++ a.writes, w.family ≠ r.family
  /-- From the entry of the function on, and from every load of the pool address on, the register
  holds the address wherever a path reaches machine code without running a data directive. -/
  held : ∀ r ∈ q, ∀ (p : Placement) (a b : ℕ × Machine),
    (a.1 = 0 ∨ lines[a.1]? = some (.native (.leaq pool.name r))) → Steps p lines a b →
    ∀ i ops bytes, lines[b.1]? = some (.kept i ops bytes) →
      b.2.word? r = some (p.datum pool.name)

section Function

variable {c : UnitContext} {f : ConvertedFunction} {r : Fin 16} {exit : List TargetInstruction}
  {parts : List (List Line)}

/-- The lines of the records of a body leave the register of the pool alone and load it behind
calls. -/
lemma isAnchored_of_gives
    (hregister : f.source.poolRegister = .ok (.gp .w64 r)) (hr : r ≠ 4)
    (hexit : exit = [] ∨ epilogue f.signature f.layout = .ok exit)
    (hparts : List.Forall₂ (BodyItem.Gives c.pool (some (.gp .w64 r)) exit) f.source.body parts) :
    IsAnchored c.pool.name r parts.flatten := by
  refine isAnchored_flatten fun lines hlines => ?_
  obtain ⟨b, hb, hgives⟩ := exists_of_mem_right hparts hlines
  refine gives_isAnchored hgives hr ?_ ?_
  · intro t ht
    rcases hexit with rfl | hexit
    · cases ht
    · exact ⟨epilogue_spares hexit hr ht, epilogue_isTransfer hexit ht⟩
  · intro i hi
    obtain ⟨a, ha, hfree⟩ :=
      SourceFunction.poolRegister_spec hregister (List.mem_filterMap.mpr ⟨b, hb, hi⟩)
    exact ⟨a, ha, fun w hw => hfree w (List.mem_append_right _ hw)⟩

/-- At machine code the register of the pool holds the address of the pool. -/
lemma word?_of_path {front : List TargetInstruction} {name : String} {body : List Line}
    (hfront : ∀ t ∈ front, t.isTransfer = false) (hbody : IsAnchored name r body)
    {p : Placement} {a b : ℕ × Machine}
    (ha : a.1 = 0 ∨ (anchoredLines front name r body)[a.1]? =
      some (.native (.leaq name (.gp .w64 r))))
    (hpath : Steps p (anchoredLines front name r body) a b) {i : Instruction} {ops : List Operand}
    {bytes : List UInt8}
    (hkept : (anchoredLines front name r body)[b.1]? = some (.kept i ops bytes)) :
    b.2.word? (.gp .w64 r) = some (p.datum name) := by
  have hstart : Held front name r body p a := by
    rcases ha with hzero | hload
    · rcases Nat.eq_zero_or_pos front.length with hnil | hpos
      · refine .inr (.inl ?_)
        rw [hzero, ← hnil]
        exact anchoredLines_length
      · exact .inl (hzero ▸ hpos)
    · exact .inr (.inl hload)
  rcases held_path hfront hbody hpath hstart with hlt | hload | hvalue
  · rw [anchoredLines_of_lt hlt] at hkept
    cases hkept
  · rw [hload] at hkept
    cases hkept
  · rw [Machine.word?, hvalue]

/-- Where a body has an address relative to the instruction pointer, the pool has the data. -/
lemma data_of_gives {x : DataIndex} {q : Option Register} (hx : x.IsNamed)
    (hfilled : c.pool.IsFilledFrom x)
    (hparts : List.Forall₂ (BodyItem.Gives c.pool q exit) f.source.body parts)
    {i : Instruction} (hi : i ∈ f.source.instructions) (hclears : Draft.clearsUpper i = false)
    {a : Address} (ha : a ∈ i.addresses) (hrip : a.ripRelative = true)
    (hlookup : ∃ b, x.lookup a.symbol = .ok b) :
    i.isEncoded = true ∧
      ∃ symbol n b, a.symbol = some symbol ∧ c.pool.offset? (some symbol) = some n ∧
        x.lookup (some symbol) = .ok b ∧
        (x.LabelsOnce symbol → (c.pool.data.drop n).take b.data.length = b.data) := by
  obtain ⟨e, he, hei⟩ := List.mem_filterMap.mp hi
  obtain ⟨lines, -, hgives⟩ := exists_of_mem_left hparts he
  cases e with
  | instruction j =>
    obtain rfl := Option.some.inj hei
    obtain ⟨henc, symbol, n, hsymbol, hn⟩ := exists_offset_of_gives hgives hclears ha hrip
    obtain ⟨b, hb⟩ := hlookup
    rw [hsymbol] at hb
    exact ⟨henc, symbol, n, b, hsymbol, hn, hb, hfilled.data_of_offset hx hn hb⟩
  | _ => cases hei

/-- The machine code in the lines of a function is that of its instructions. -/
lemma kept_of_forall_gives {q : Option Register} (entry : List TargetInstruction)
    (hparts : List.Forall₂ (BodyItem.Gives c.pool q exit) f.source.body parts) :
    (entry.map Line.native ++ parts.flatten).filterMap Line.kept? =
      f.source.instructions.filter Instruction.isEncoded := by
  have hnative : (entry.map Line.native).filterMap Line.kept? = [] := by simp [Line.kept?]
  rw [List.filterMap_append, hnative, List.nil_append]
  exact kept_flatten hparts

/-- It encodes them with their operands moved to the pool. -/
lemma moved_of_forall_gives {q : Option Register} {entry : List TargetInstruction}
    (hparts : List.Forall₂ (BodyItem.Gives c.pool q exit) f.source.body parts) {i : Instruction}
    {ops : List Operand} {bytes : List UInt8}
    (hmem : Line.kept i ops bytes ∈ entry.map Line.native ++ parts.flatten) :
    List.Forall₂ (Operand.Moved c.pool q) i.operands ops ∧
      encode i.mnemonic i.mark ops = .ok bytes := by
  rcases List.mem_append.mp hmem with hmem | hmem
  · obtain ⟨t, -, ht⟩ := List.mem_map.mp hmem
    cases ht
  · obtain ⟨lines, hlines, hmem⟩ := List.mem_flatten.mp hmem
    obtain ⟨b, -, hgives⟩ := exists_of_mem_right hparts hlines
    exact encode_of_gives hgives hmem

/-- The lines of a converted function find the data of the unit in the pool. -/
lemma isRelocated_of_convertFunction {x : DataIndex} (hx : x.IsNamed)
    (hfilled : c.pool.IsFilledFrom x)
    (hlookup : ∀ i ∈ f.source.instructions, ∀ a ∈ i.addresses, a.ripRelative = true →
      ∃ b, x.lookup a.symbol = .ok b)
    (h : convertFunction c f.source = .ok (.ok f)) :
    ∃ q lines, IsRelocated x c.pool f q lines := by
  obtain ⟨-, q, entry, exit, parts, hregister, hentry, hexit, hparts, hitems⟩ :=
    exists_lines_of_convertFunction h
  have hpool := poolRegister_eq_ok hregister
  have hrip : ∀ r ∈ q, r ≠ .rip := by
    rintro r hr rfl
    obtain ⟨k, hk, -⟩ := exists_of_mem_poolCandidates _ (mem_poolCandidates (hpool _ hr))
    cases hk
  refine ⟨q, entry.map Line.native ++ parts.flatten, hitems, kept_of_forall_gives entry hparts,
    fun i ops bytes => moved_of_forall_gives hparts, ?_, ?_, hregister,
    ⟨entry, parts.flatten, rfl, hentry, ?_⟩, ?_, ?_, ?_⟩
  · intro i ops bytes hmem o ho
    obtain ⟨o', -, hmoved⟩ := exists_of_mem_right (moved_of_forall_gives hparts hmem).1 ho
    exact ripRelative_of_moved hrip hmoved
  · intro i hi hclears a ha hrel
    exact data_of_gives hx hfilled hparts hi hclears ha hrel (hlookup i hi a ha hrel)
  all_goals
    rintro r hr
    obtain rfl : q = some r := hr
    have hr := hpool r rfl
    obtain ⟨k, rfl, hk, -⟩ := exists_of_mem_poolCandidates r (mem_poolCandidates hr)
    obtain ⟨front, rfl, hfront⟩ := preamble_eq_append hentry
    have hbody := isAnchored_of_gives hr hk (hexit.imp_left And.right) hparts
  · simp
  · refine CallsFollowedBy.append (.of_forall_ne (call_notMem_native ?_)) hbody.calls
    intro t ht
    rcases List.mem_append.mp ht with ht | ht
    · exact hfront t ht
    · rw [List.mem_singleton.mp ht]
      rfl
  · intro i hi
    exact SourceFunction.poolRegister_spec hr hi
  · intro p a b ha hpath i ops bytes hmem
    exact word?_of_path hfront hbody ha hpath hmem

end Function

/-- In a converted unit every function is relocated: the operands of its machine code address the
data of the unit in the pool, and the register of the pool address holds it wherever they are used.
Each function of the source is converted, functions with one label as the last of them. -/
theorem convert_isRelocated {o : Options} {text : String} {u : ConvertedUnit}
    (h : convert o text = .ok u) :
    ∃ functions x, readFunctions text = .ok (functions, x) ∧
      List.Forall₂ (fun f g => g.source.label = f.label ∧ g.source ∈ functions ∧
        ∃ q lines, IsRelocated x u.pool g q lines) functions u.functions := by
  obtain ⟨functions, x, hread, hfilled, hlookup, c, hpool, hfs⟩ := convert_eq_ok h
  refine ⟨functions, x, hread, hfs.imp ?_⟩
  rintro f g ⟨hlabel, hmem, hconvert⟩
  rw [← hpool] at hfilled ⊢
  exact ⟨hlabel, hmem, isRelocated_of_convertFunction (readFunctions_isNamed hread) hfilled
    (hlookup _ hmem) hconvert⟩

/-- A unit with a loop that calls a helper and then reads the second word of a table. -/
theorem convert_isRelocated_of_loop :
    let text := String.join [
      ".section .rodata\n", "t: .quad 1, 2\n", ".text\n", "f: push rbp\n", "mov rbp, rsp\n",
      ".L1: call memcpy\n", "add rax, [rip + t + 8]\n", "jne .L1\n", "leave\n", "ret\n"]
    ∃ u, convert {} text = .ok u ∧
      ∃ functions x, readFunctions text = .ok (functions, x) ∧
        List.Forall₂ (fun f g => g.source.label = f.label ∧ g.source ∈ functions ∧
          ∃ q lines, IsRelocated x u.pool g q lines) functions u.functions := by
  intro text
  obtain ⟨u, hu, -⟩ : ∃ u, convert {} text = .ok u ∧ u.functions.length = 1 :=
    exists_ok_of_any (by decide +kernel)
  exact ⟨u, hu, convert_isRelocated hu⟩

/-- A unit in which an instruction that clears the upper halves of the vector registers refers to
data, a label stands at two places, and a data directive holds the machine code of an instruction
that changes the register of the pool. The first is written without its operand, the pool holds
other data at the offset of the label than the index names, and the register is lost before it is
used. -/
theorem not_isRelocated :
    let text := String.join [
      ".section .rodata\n", "A: C: .long 1\n", "A: .long 2\n", ".text\n", "f: push rbp\n",
      "mov rbp, rsp\n", "vzeroupper [rip + C]\n", ".byte 0x31, 0xdb\n", "mov eax, [rip + A]\n",
      "leave\n", "ret\n"]
    ∃ functions x u, readFunctions text = .ok (functions, x) ∧ convert {} text = .ok u ∧
      ∃ f ∈ u.functions,
        (∃ i ∈ f.source.instructions, ∃ a ∈ i.addresses, a.ripRelative = true ∧
          ∀ bytes, Item.code bytes (some i.text) ∉ f.items) ∧
        (∃ i ∈ f.source.instructions, ∃ a ∈ i.addresses, a.ripRelative = true ∧
          ∃ n b, u.pool.offset? a.symbol = some n ∧ x.lookup a.symbol = .ok b ∧
            (u.pool.data.drop n).take b.data.length ≠ b.data) ∧
        f.source.poolRegister = .ok .rbx ∧
        encode "xor" none [.reg (.gp .w32 3), .reg (.gp .w32 3)] = .ok [0x31, 0xdb] ∧
        f.items = [
          .native (.leaq "LCDATA" .rbx), .native (.bare "VZEROUPPER"),
          .code [0x31, 0xdb] (some ".byte 0x31, 0xdb"),
          .code [0x8b, 0x03] (some "mov eax, [rip + A]"), .native .ret] := by
  intro text
  obtain ⟨⟨functions, x⟩, hread, hlookup⟩ : ∃ r, readFunctions text = .ok r ∧
      (r.2.lookup (some "A")).toOption.map (·.data) = some [2, 0, 0, 0] :=
    exists_ok_of_any (by decide +kernel)
  obtain ⟨u, hu, hoffset, hdata, f, hf, hregister, hitems, hclears, hrefers⟩ :
      ∃ u, convert {} text = .ok u ∧ u.pool.offset? (some "A") = some 0 ∧
        u.pool.data = [1, 0, 0, 0] ∧ ∃ f ∈ u.functions, f.source.poolRegister = .ok .rbx ∧
          f.items = [
            .native (.leaq "LCDATA" .rbx), .native (.bare "VZEROUPPER"),
            .code [0x31, 0xdb] (some ".byte 0x31, 0xdb"),
            .code [0x8b, 0x03] (some "mov eax, [rip + A]"), .native .ret] ∧
          (∃ i ∈ f.source.instructions, i.text = "vzeroupper [rip + C]" ∧
            ∃ a ∈ i.addresses, a.ripRelative = true) ∧
          ∃ i ∈ f.source.instructions, ∃ a ∈ i.addresses,
            a.ripRelative = true ∧ a.symbol = some "A" :=
    exists_ok_of_any (by decide +kernel)
  refine ⟨functions, x, u, hread, hu, f, hf, ?_, ?_, hregister, by decide +kernel, hitems⟩
  · obtain ⟨i, hi, htext, a, ha, hrip⟩ := hclears
    refine ⟨i, hi, a, ha, hrip, fun bytes hmem => ?_⟩
    rw [hitems, htext] at hmem
    simp at hmem
  · obtain ⟨i, hi, a, ha, hrip, hsymbol⟩ := hrefers
    refine ⟨i, hi, a, ha, hrip, 0, ?_⟩
    rw [hsymbol, hdata]
    cases hb : x.lookup (some "A") with
    | error d =>
      rw [hb] at hlookup
      cases hlookup
    | ok b =>
      rw [hb] at hlookup
      refine ⟨b, hoffset, rfl, ?_⟩
      rw [show b.data = [2, 0, 0, 0] from Option.some.inj hlookup]
      decide

end AsmBridge
