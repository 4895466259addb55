import AsmBridge.Proofs.Conversion.Aliases
import AsmBridge.Proofs.Conversion.Requests
import AsmBridge.Proofs.Data.Alignment

/-!
# Alignment of the data of a unit

In a converted unit the slot of a blob has the greatest of all alignments that are asked for: those
declared for the label that begins the blob, and the widths of the accesses to it that functions of
the unit make, up to the widest one. The slot begins at a multiple of this greatest alignment, which
is a multiple of the others if all of them are powers of two. Where it is not, as behind a section
with entities of 24 bytes, the slot can begin at an address that is odd for an access of 16 bytes
(`not_slot_aligned`).
-/

namespace AsmBridge

/-- The pool of a converted unit is aligned for all uses of data by its functions. -/
lemma isAlignedFor_of_convert {o : Options} {functions : List SourceFunction} {x : DataIndex}
    (h : ∀ f ∈ functions, (requireConstants x o.poolName functions).2.lookup f.label = none) :
    (unitContext o x functions).pool.IsAlignedFor (x.uses functions) := by
  have hpos : ∀ u ∈ x.uses functions, 0 < u.2 := by
    intro u hu
    obtain ⟨f, -, i, -, a, -, -, -, heq⟩ := mem_uses.mp hu
    rw [heq]
    exact accessBytes_pos a
  have haligned := Pool.isAlignedFor_withUses o.poolName hpos
  have heq : (requireConstants x o.poolName functions).1 =
      Pool.withUses { name := o.poolName } (x.uses functions) := by
    rw [requireConstants_eq] at h ⊢
    exact foldl_requireFunction_eq_withUses h
  rw [← heq] at haligned
  exact ⟨haligned.nodup, haligned.greatest, haligned.covers⟩

/-! ## Slots -/

/-- The slot of a blob that begins at a label behind records lies at an offset: at the end of the
slots before it, rounded up to the greatest of the alignments that uses of its symbol ask for. If
this is a power of two, the offset is a multiple of every power of two that is declared for the
label or is the width of an access to the blob. -/
structure IsSlotFor (functions : List SourceFunction) (x : DataIndex) (p : Pool)
    (front : List Record) (b : Blob) (s : PoolSlot) (n : ℕ) : Prop where
  offset : p.offset? (some b.symbol) = some n
  place : ∃ before after, p.slots = before ++ s :: after ∧
    n = roundUp (Pool.endFrom 0 before) s.align
  greatest : IsGreatest (Pool.demands (x.uses functions) b.symbol) s.align
  dvd_declared : (∃ k, s.align = 2 ^ k) → ∀ j : ℕ, (2 ^ j : ℤ) ∈ DataIndex.declared front →
    2 ^ j ∣ n
  dvd_access : (∃ k, s.align = 2 ^ k) → ∀ f ∈ functions, ∀ i ∈ f.instructions,
    ∀ a ∈ i.addresses, a.ripRelative = true → x.lookup a.symbol = .ok b →
      (∃ j, min a.accessBytes 32 = 2 ^ j) → min a.accessBytes 32 ∣ n

section Unit

variable {x : DataIndex} {functions : List SourceFunction}

/-- The slot of a blob that an address uses. -/
lemma exists_isSlotFor {p : Pool} (hp : p.IsAlignedFor (x.uses functions)) {front : List Record}
    {l : Label} {b : Blob} (hb : DataIndex.BeginsAt front l b) {f : SourceFunction}
    (hf : f ∈ functions) {i : Instruction} (hi : i ∈ f.instructions) {a : Address}
    (ha : a ∈ i.addresses) (hrip : a.ripRelative = true) (hlookup : x.lookup a.symbol = .ok b) :
    ∃ s n, IsSlotFor functions x p front b s n := by
  have huse : (b, a.accessBytes) ∈ x.uses functions :=
    mem_uses.mpr ⟨f, hf, i, hi, a, ha, hrip, hlookup, rfl⟩
  obtain ⟨n, hn⟩ := Pool.exists_offset (hp.covers _ huse)
  obtain ⟨before, s, after, hslots, rfl, hgreatest⟩ := hp.offset hn
  refine ⟨s, _, hn, ⟨before, after, hslots, rfl⟩, hgreatest, fun hs j hj => ?_,
    fun hs g hg i' hi' a' ha' hrip' hlookup' hpow => ?_⟩
  · refine (dvd_of_twoPow_le ⟨j, rfl⟩ hs ?_).trans (dvd_roundUp _ _)
    have hle : b.align ≤ s.align := hgreatest.2 ⟨_, huse, rfl, .inl rfl⟩
    exact_mod_cast (hb.align.2 hj).trans hle
  · refine (dvd_of_twoPow_le hpow hs ?_).trans (dvd_roundUp _ _)
    have huse' : (b, a'.accessBytes) ∈ x.uses functions :=
      mem_uses.mpr ⟨g, hg, i', hi', a', ha', hrip', hlookup', rfl⟩
    have hle : min (a'.accessBytes : ℤ) Pool.widestAccess ≤ s.align :=
      hgreatest.2 ⟨_, huse', rfl, .inr rfl⟩
    rw [Pool.widestAccess] at hle
    omega

/-- What is encoded refers to data through the first label of its blob, if the label of the
reference stands at one place only. -/
lemma symbol_of_convertFunction (hx : x.IsNamed) {c : UnitContext}
    (hfilled : c.pool.IsFilledFrom x) {g : ConvertedFunction}
    (h : convertFunction c g.source = .ok (.ok g)) {i : Instruction}
    (hi : i ∈ g.source.instructions) (hclears : Draft.clearsUpper i = false) {a : Address}
    (ha : a ∈ i.addresses) (hrip : a.ripRelative = true) {b : Blob}
    (hb : x.lookup a.symbol = .ok b) (honce : ∀ s, a.symbol = some s → x.LabelsOnce s) :
    a.symbol = some b.symbol := by
  obtain ⟨-, r, entry, exit, parts, -, -, -, hparts, -⟩ := exists_lines_of_convertFunction h
  obtain ⟨-, s, n, d, hs, hn, hd, -⟩ := data_of_gives hx hfilled hparts hi hclears ha hrip ⟨b, hb⟩
  rw [hs] at hb ⊢
  by_contra hne
  have hnone := Pool.offset?_eq_none hx hfilled hb (honce s hs) fun heq => hne (congrArg some heq).symm
  exact nomatch hnone.symm.trans hn

end Unit

/-- In a converted unit every address relative to the instruction pointer refers to a blob with a
slot that is aligned as `IsSlotFor` says. Where it is encoded and its label stands at one place
only, the label is the one that begins the blob. -/
theorem convert_slot_isAligned {o : Options} {text : String} {u : ConvertedUnit}
    (h : convert o text = .ok u) :
    ∃ records functions x, Source.readUnit text = .ok records ∧
      extractFunctions records = .ok functions ∧ DataIndex.ofRecords records = .ok x ∧
      ∀ f ∈ functions, ∀ i ∈ f.instructions, ∀ a ∈ i.addresses, a.ripRelative = true →
        ∃ b front l back s n, x.lookup a.symbol = .ok b ∧
          records = front ++ .label l :: back ∧ DataIndex.BeginsAt front l b ∧
          IsSlotFor functions x u.pool front b s n ∧
          (f ∈ u.functions.map (·.source) → Draft.clearsUpper i = false →
            (∀ name, a.symbol = some name → x.LabelsOnce name) → a.symbol = some l.name) := by
  obtain ⟨functions, x, hread, hpool, hfailed, hfs, -⟩ := exists_context_of_convert h
  obtain ⟨records, hrecords, hfunctions, hx⟩ := readFunctions_eq_ok.mp hread
  refine ⟨records, functions, x, hrecords, hfunctions, hx, fun f hf i hi a ha hrip => ?_⟩
  obtain ⟨b, hb⟩ := exists_lookup_of_requireConstants hf (hfailed f hf) hi ha hrip
  obtain ⟨front, l, back, heq, hbegins⟩ := DataIndex.exists_beginsAt hx hb
  have haligned : u.pool.IsAlignedFor (x.uses functions) := hpool ▸ isAlignedFor_of_convert hfailed
  obtain ⟨s, n, hslot⟩ := exists_isSlotFor haligned hbegins hf hi ha hrip hb
  refine ⟨b, front, l, back, s, n, hb, heq, hbegins, hslot, fun hmem hclears honce => ?_⟩
  obtain ⟨g, hg, rfl⟩ := List.mem_map.mp hmem
  obtain ⟨f', -, -, -, hconvert⟩ := exists_of_mem_right hfs hg
  have hfilled : (unitContext o x functions).pool.IsFilledFrom x := fun s hs =>
    requireConstants_isFilled s hs
  rw [hbegins.name]
  exact symbol_of_convertFunction (readFunctions_isNamed hread) hfilled hconvert hi hclears ha hrip
    hb honce

/-- A unit that loads a vector behind a byte, from a section with entities of 16 bytes. -/
theorem convert_slot_isAligned_of_vector :
    let text := String.join [
      ".section .rodata\n", "A: .byte 1\n", ".section .rodata.cst16,\"aM\",@progbits,16\n",
      ".p2align 5\n", "B: .quad 1, 2\n", ".text\n", "f: push rbp\n", "mov rbp, rsp\n",
      "mov al, byte ptr [rip + A]\n", "movaps xmm0, xmmword ptr [rip + B]\n", "leave\n", "ret\n"]
    ∃ u, convert {} text = .ok u ∧
      ∃ records functions x, Source.readUnit text = .ok records ∧
        extractFunctions records = .ok functions ∧ DataIndex.ofRecords records = .ok x ∧
        ∀ f ∈ functions, ∀ i ∈ f.instructions, ∀ a ∈ i.addresses, a.ripRelative = true →
          ∃ b front l back s n, x.lookup a.symbol = .ok b ∧
            records = front ++ .label l :: back ∧ DataIndex.BeginsAt front l b ∧
            IsSlotFor functions x u.pool front b s n ∧
            (f ∈ u.functions.map (·.source) → Draft.clearsUpper i = false →
              (∀ name, a.symbol = some name → x.LabelsOnce name) → a.symbol = some l.name) := by
  intro text
  obtain ⟨u, hu, -⟩ : ∃ u, convert {} text = .ok u ∧ u.functions.length = 1 :=
    exists_ok_of_any (by decide +kernel)
  exact ⟨u, hu, convert_slot_isAligned hu⟩

/-- A unit that is converted although the slot of a vector, which is declared to be aligned to 16
bytes and is loaded by an instruction that needs this, lies at offset 24: its section has entities
of 24 bytes. -/
theorem not_slot_aligned :
    let text := String.join [
      ".section .rodata\n", "A: .byte 1\n", ".section .rodata,\"aM\",@progbits,24\n",
      ".p2align 4\n", "B: .quad 1, 2, 3\n", ".text\n", "f: push rbp\n", "mov rbp, rsp\n",
      "mov al, byte ptr [rip + A]\n", "movaps xmm0, xmmword ptr [rip + B]\n", "leave\n", "ret\n"]
    ∃ records functions u, Source.readUnit text = .ok records ∧
      extractFunctions records = .ok functions ∧ convert {} text = .ok u ∧
      (∃ front l back, records = front ++ .label l :: back ∧ l.name = "B" ∧
        Section.isReadOnly (l.sect.getD "") = true ∧ 2 ^ 4 ∈ DataIndex.asked front) ∧
      (∃ f ∈ functions, ∃ i ∈ f.instructions, ∃ a ∈ i.addresses, a.ripRelative = true ∧
        a.symbol = some "B" ∧ a.accessBytes = 2 ^ 4) ∧
      u.pool.offset? (some "B") = some 24 ∧ ¬2 ^ 4 ∣ 24 := by
  intro text
  let l : Label := ⟨"B", some 5, some ".rodata"⟩
  obtain ⟨records, hread, hrecords, hasked, hfunctions⟩ :
      ∃ records, Source.readUnit text = .ok records ∧
        records = records.take 5 ++ .label l :: records.drop 6 ∧
        2 ^ 4 ∈ DataIndex.asked (records.take 5) ∧
        (extractFunctions records).toOption.any (fun functions => decide
          (∃ f ∈ functions, ∃ i ∈ f.instructions, ∃ a ∈ i.addresses, a.ripRelative = true ∧
            a.symbol = some "B" ∧ a.accessBytes = 2 ^ 4)) = true :=
    exists_ok_of_any (by decide +kernel)
  obtain ⟨functions, hfunctions, hloads⟩ := exists_ok_of_any hfunctions
  obtain ⟨u, hu, hoffset⟩ : ∃ u, convert {} text = .ok u ∧ u.pool.offset? (some "B") = some 24 :=
    exists_ok_of_any (by decide +kernel)
  exact ⟨records, functions, u, hread, hfunctions, hu,
    ⟨records.take 5, l, records.drop 6, hrecords, rfl, by decide +kernel, hasked⟩, hloads, hoffset,
    by decide⟩

end AsmBridge
