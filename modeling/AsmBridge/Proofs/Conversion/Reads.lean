import AsmBridge.Proofs.Conversion.Defects
import AsmBridge.Proofs.Conversion.SlotAlignment
import AsmBridge.Proofs.Pool.Bytes

/-!
# What functions read from the pool

An operand that refers to data of the unit is moved to the slot of the data, with what it adds to
their symbol and with its width, and neither is held against the length of the data. `Reads` says
what the operand finds there: the bytes of the data as far as it stays within them, and elsewhere
those of other data, zeros, or what lies outside the pool. A function is refused for its data only
where a symbol has none (`convert_reads`), so that a unit is converted although an operand reads
beyond its data (`not_reads_within`).
-/

namespace AsmBridge

/-- The data are found under a label that stands at one place only. -/
def DataIndex.IsUnique (x : DataIndex) (a : Address) : Prop :=
  ∀ name, a.symbol = some name → x.LabelsOnce name

/-- What an instruction of a converted function reads through an address relative to the instruction
pointer, of a blob whose slot is at the offset `n` in the pool, to which the register `q` points. -/
structure Reads (x : DataIndex) (pool : Pool) (g : ConvertedFunction) (i : Instruction)
    (a : Address) (b : Blob) (q : Register) (n : ℕ) : Prop where
  offset : pool.offset? a.symbol = some n
  register : g.source.poolRegister = .ok q
  /-- The instruction is encoded with the address moved to the pool, whatever lies there. -/
  encoded : ∃ ops bytes, .code bytes (some i.text) ∈ g.items ∧
    encode i.mnemonic i.mark ops = .ok bytes ∧
    List.Forall₂ (Operand.Moved pool (some q)) i.operands ops ∧
    .mem (a.rebase q (n + a.disp)) ∈ ops
  /-- Within the length of the blob it finds the bytes of the blob. -/
  inside : x.IsUnique a → ∀ j : ℕ, 0 ≤ a.disp + j → a.disp + j < b.data.length →
    pool.byteAt (n + a.disp + j) = b.data[(a.disp + j).toNat]?
  /-- Elsewhere it finds nothing of the blob. -/
  beyond : x.IsUnique a → ∀ j : ℕ, (a.disp + j < 0 ∨ b.data.length ≤ a.disp + j) →
    ∀ s ∈ pool.placed, s.1.Covers s.2 (n + a.disp + j) → s.1.blob.symbol ≠ b.symbol
  content : ∀ j : ℕ, pool.Content (n + a.disp + j) (pool.byteAt (n + a.disp + j))

section Function

variable {c : UnitContext} {g : ConvertedFunction} {i : Instruction} {a : Address}

/-- An instruction with an address relative to the instruction pointer is encoded with this address
moved to the pool. -/
lemma exists_encoded (h : convertFunction c g.source = .ok (.ok g))
    (hi : i ∈ g.source.instructions) (hclears : Draft.clearsUpper i = false)
    (ha : a ∈ i.addresses) (hrip : a.ripRelative = true) :
    ∃ q n, c.pool.offset? a.symbol = some n ∧ g.source.poolRegister = .ok q ∧
      ∃ ops bytes, .code bytes (some i.text) ∈ g.items ∧
        encode i.mnemonic i.mark ops = .ok bytes ∧
        List.Forall₂ (Operand.Moved c.pool (some q)) i.operands ops ∧
        .mem (a.rebase q (n + a.disp)) ∈ ops := by
  obtain ⟨-, r, entry, exit, parts, hregister, -, -, hparts, hitems⟩ :=
    exists_lines_of_convertFunction h
  obtain ⟨e, he, hei⟩ := List.mem_filterMap.mp hi
  obtain ⟨lines, hlines, hgives⟩ := exists_of_mem_left hparts he
  cases e with
  | instruction j =>
    obtain rfl := Option.some.inj hei
    have hline : ∀ l ∈ lines, l.item ∈ g.items := by
      intro l hl
      rw [← hitems]
      exact List.mem_map_of_mem (List.mem_append_right _ (List.mem_flatten_of_mem hlines hl))
    cases hgives with
    | jump _ _ _ hnone => exact absurd ha (hnone ▸ List.not_mem_nil)
    | call _ _ _ hnone => exact absurd ha (hnone ▸ List.not_mem_nil)
    | clears _ _ h => exact absurd h (Bool.eq_false_iff.mp hclears)
    | @kept _ ops bytes _ hops hbytes =>
      obtain ⟨o, ho, hoa⟩ := List.mem_filterMap.mp ha
      obtain ⟨o', ho', hmoved⟩ := exists_of_mem_left hops ho
      cases o with
      | mem a' =>
        obtain rfl := Option.some.inj hoa
        cases hmoved with
        | @datum _ q symbol n _ hq hsymbol hn =>
          subst hq
          exact ⟨q, n, hsymbol ▸ hn, poolRegister_eq_ok hregister q rfl, ops, bytes,
            hline _ List.mem_cons_self, hbytes, hops, ho'⟩
        | other hother => exact absurd (hother a' rfl) (by simp [hrip])
      | _ => cases hoa
  | _ => cases hei

end Function

/-- What an address of a converted function reads. -/
lemma reads_of_convertFunction {x : DataIndex} {functions : List SourceFunction} {o : Options}
    (hx : x.IsNamed)
    (hfailed : ∀ f ∈ functions, (requireConstants x o.poolName functions).2.lookup f.label = none)
    {g : ConvertedFunction} (hg : g.source ∈ functions)
    (h : convertFunction (unitContext o x functions) g.source = .ok (.ok g)) {i : Instruction}
    (hi : i ∈ g.source.instructions) (hclears : Draft.clearsUpper i = false) {a : Address}
    (ha : a ∈ i.addresses) (hrip : a.ripRelative = true) :
    ∃ b q n, x.lookup a.symbol = .ok b ∧
      Reads x (unitContext o x functions).pool g i a b q n := by
  have hfilled : (unitContext o x functions).pool.IsFilledFrom x :=
    fun s hs => requireConstants_isFilled s hs
  have hpos : ∀ s ∈ (unitContext o x functions).pool.slots, 0 < s.align :=
    fun s hs => (hfilled s hs).1
  have hnodup := (isAlignedFor_of_convert hfailed).nodup
  obtain ⟨b, hb⟩ := exists_lookup_of_requireConstants hg (hfailed _ hg) hi ha hrip
  obtain ⟨q, n, hn, hregister, hencoded⟩ := exists_encoded h hi hclears ha hrip
  -- Where the label stands once, the slot at this offset holds the blob.
  have hslot : x.IsUnique a → ∃ s, (s, n) ∈ (unitContext o x functions).pool.placed ∧
      s.blob = b := by
    intro honce
    have hsymbol := symbol_of_convertFunction hx hfilled h hi hclears ha hrip hb honce
    rw [hsymbol] at hn hb
    obtain ⟨s, hs, hname⟩ := Pool.exists_slot_of_offset hn
    obtain ⟨-, other, hother⟩ := hfilled s (List.of_mem_zip hs).1
    exact ⟨s, hs, DataIndex.eq_of_symbol hx hother hname hb (honce _ hsymbol)⟩
  refine ⟨b, q, n, hb, hn, hregister, hencoded, ?_, ?_, fun j => Pool.content_byteAt hpos _⟩
  · intro honce j hlow hhigh
    obtain ⟨s, hs, rfl⟩ := hslot honce
    rw [Pool.byteAt_of_covers hpos hs ⟨by omega, by omega⟩]
    congr 2
    omega
  · intro honce j hout t ht hcovers heq
    obtain ⟨s, hs, rfl⟩ := hslot honce
    obtain rfl := Pool.eq_of_placed hnodup ht hs heq
    obtain ⟨hlow, hhigh⟩ : (n : ℤ) ≤ n + a.disp + j ∧
      n + a.disp + j < n + s.blob.data.length := hcovers
    omega

/-! ## Refusals -/

/-- Two addresses refer to the same symbol from the same line, perhaps at another distance and with
another width. -/
def SameReference (q q' : Instruction × Address) : Prop :=
  q'.1.line = q.1.line ∧ q'.2.ripRelative = q.2.ripRelative ∧ q'.2.symbol = q.2.symbol

/-- Whether data are missing depends on symbols alone. -/
lemma lacks_of_sameReference {x : DataIndex} {f f' : SourceFunction} (hname : f'.name = f.name)
    (h : List.Forall₂ SameReference f.addresses f'.addresses) : x.lacks f' = x.lacks f := by
  have hmissing : ∀ q q', SameReference q q' → x.missing? f' q' = x.missing? f q := by
    rintro q q' ⟨hline, hrip, hsymbol⟩
    rw [DataIndex.missing?, DataIndex.missing?, hline, hrip, hsymbol, hname]
  rw [DataIndex.lacks, DataIndex.lacks]
  generalize f.addresses = ps, f'.addresses = ps' at h
  induction h with
  | nil => rfl
  | cons hq _ ih => rw [List.findSome?_cons, List.findSome?_cons, hmissing _ _ hq, ih]

/-- A symbol without data is a defect of missing data. -/
lemma kind_of_lookup {x : DataIndex} {symbol : Option String} {d : Defect}
    (h : x.lookup symbol = .error d) : d.kind = .missingData := by
  rw [DataIndex.lookup] at h
  split at h
  · split at h <;> rw [← Except.error.inj h] <;> rfl
  · split at h
    · rw [← Except.error.inj h]
      rfl
    · split at h
      · rw [← Except.error.inj h]
        rfl
      · cases h

/-- A function lacks data if the data of one of its addresses cannot be looked up. -/
lemma lacks_eq_some {x : DataIndex} {f : SourceFunction} {d : Diagnostic}
    (h : x.lacks f = some d) : d.defect.kind = .missingData ∧
      ∃ i ∈ f.instructions, ∃ a ∈ i.addresses, a.ripRelative = true ∧
        x.lookup a.symbol = .error d.defect ∧ d.line = i.line ∧ d.construct = a.symbol := by
  obtain ⟨⟨i, a⟩, hq, hd⟩ := List.exists_of_findSome?_eq_some h
  obtain ⟨hi, ha⟩ := SourceFunction.mem_addresses.mp hq
  rw [DataIndex.missing?] at hd
  split at hd
  · rename_i hrip
    split at hd
    · cases hd
    · rename_i e he
      obtain rfl := Option.some.inj hd
      exact ⟨kind_of_lookup he, i, hi, a, ha, hrip, he, rfl, rfl⟩
  · cases hd

/-- In a converted unit every address relative to the instruction pointer that is encoded reads its
data as `Reads` says, near their ends and beyond them alike. A unit with defects has, where labels
name one function each, that of the data a function lacks for each function that lacks some. A
function lacks data only if there are none for the symbol of an address, however far from it and
however wide the access is. -/
theorem convert_reads {o : Options} {text : String} {functions : List SourceFunction}
    {x : DataIndex} (hread : readFunctions text = .ok (functions, x)) :
    (∀ u, convert o text = .ok u → ∀ g ∈ u.functions, ∀ i ∈ g.source.instructions,
      Draft.clearsUpper i = false → ∀ a ∈ i.addresses, a.ripRelative = true →
        ∃ b q n, x.lookup a.symbol = .ok b ∧ Reads x u.pool g i a b q n) ∧
    (∀ f d, x.lacks f = some d → d.defect.kind = .missingData ∧
      ∃ i ∈ f.instructions, ∃ a ∈ i.addresses, a.ripRelative = true ∧
        x.lookup a.symbol = .error d.defect ∧ d.line = i.line ∧ d.construct = a.symbol) ∧
    (∀ f f', f'.name = f.name → List.Forall₂ SameReference f.addresses f'.addresses →
      x.lacks f' = x.lacks f) ∧
    ((functions.map (·.label)).Nodup → ∀ file ds, convert o text = .error (.defects file ds) →
      ds = functions.flatMap ((unitContext o x functions).defects x)) := by
  refine ⟨?_, fun f d => lacks_eq_some, fun f f' => lacks_of_sameReference, ?_⟩
  · intro u hu g hg i hi hclears a ha hrip
    obtain ⟨functions', x', hread', hpool, hfailed, hfs, -⟩ := exists_context_of_convert hu
    obtain ⟨rfl, rfl⟩ := Prod.mk.inj (Except.ok.inj (hread'.symm.trans hread))
    obtain ⟨f, -, -, hmem, hconvert⟩ := exists_of_mem_right hfs hg
    rw [hpool]
    exact reads_of_convertFunction (readFunctions_isNamed hread) hfailed hmem hconvert hi hclears
      ha hrip
  · intro hnodup file ds hds
    have hfault : ∀ fault, convert o text ≠ .error (.fault fault) := by
      intro fault h
      cases h.symm.trans hds
    obtain ⟨-, ds', hds', ⟨-, h⟩ | ⟨-, u, h⟩⟩ := convert_cases hread hnodup hfault
    · obtain ⟨-, rfl⟩ := Failure.defects.inj (Except.error.inj (h.symm.trans hds))
      exact hds'
    · cases h.symm.trans hds

/-- A unit with a table of two words, of which a function loads the second. -/
theorem convert_reads_of_table :
    let text := String.join [
      ".section .rodata\n", "A: .quad 1, 2\n", ".text\n", "f: push rbp\n", "mov rbp, rsp\n",
      "mov rax, qword ptr [rip + A + 8]\n", "leave\n", "ret\n"]
    ∃ functions x, readFunctions text = .ok (functions, x) ∧
      (∃ u, convert {} text = .ok u ∧ u.functions.length = 1) ∧
      (∀ u, convert {} text = .ok u → ∀ g ∈ u.functions, ∀ i ∈ g.source.instructions,
        Draft.clearsUpper i = false → ∀ a ∈ i.addresses, a.ripRelative = true →
          ∃ b q n, x.lookup a.symbol = .ok b ∧ Reads x u.pool g i a b q n) := by
  intro text
  obtain ⟨⟨functions, x⟩, hread, -⟩ : ∃ r, readFunctions text = .ok r ∧ r.1.length = 1 :=
    exists_ok_of_any (by decide +kernel)
  obtain ⟨u, hu, hlen⟩ : ∃ u, convert {} text = .ok u ∧ u.functions.length = 1 :=
    exists_ok_of_any (by decide +kernel)
  exact ⟨functions, x, hread, ⟨u, hu, hlen⟩, (convert_reads hread).1⟩

/-- A unit that is converted although its function loads eight bytes from data of four. -/
theorem not_reads_within :
    let text := String.join [
      ".section .rodata\n", "A: .long 1\n", ".text\n", "f: push rbp\n", "mov rbp, rsp\n",
      "mov rax, qword ptr [rip + A]\n", "leave\n", "ret\n"]
    ∃ functions x u, readFunctions text = .ok (functions, x) ∧ convert {} text = .ok u ∧
      ∃ f ∈ u.functions, f.source ∈ functions ∧ ∃ i ∈ f.source.instructions, i.mnemonic = "mov" ∧
        ∃ a ∈ i.addresses, a.ripRelative = true ∧ a.bits = some 64 ∧
          ∃ b, x.lookup a.symbol = .ok b ∧
            ¬(0 ≤ a.disp ∧ a.disp + a.accessBytes ≤ b.data.length) := by
  intro text
  obtain ⟨⟨functions, x⟩, hread, hlookup⟩ : ∃ r, readFunctions text = .ok r ∧
      (r.2.lookup (some "A")).toOption.map (·.data.length) = some 4 :=
    exists_ok_of_any (by decide +kernel)
  obtain ⟨u, hu, f, hf, i, hi, hmnemonic, a, ha, hrip, hbits, hsymbol, hdisp⟩ :
      ∃ u, convert {} text = .ok u ∧ ∃ f ∈ u.functions, ∃ i ∈ f.source.instructions,
        i.mnemonic = "mov" ∧ ∃ a ∈ i.addresses, a.ripRelative = true ∧ a.bits = some 64 ∧
          a.symbol = some "A" ∧ a.disp = 0 :=
    exists_ok_of_any (by decide +kernel)
  obtain ⟨functions', x', hread', -, -, c, -, hfs⟩ := convert_eq_ok hu
  obtain ⟨rfl, rfl⟩ := Prod.mk.inj (Except.ok.inj (hread'.symm.trans hread))
  obtain ⟨-, -, -, hmem, -⟩ := exists_of_mem_right hfs hf
  refine ⟨functions', x', u, hread, hu, f, hf, hmem, i, hi, hmnemonic, a, ha, hrip, hbits, ?_⟩
  rw [hsymbol]
  cases hb : x'.lookup (some "A") with
  | error d =>
    rw [hb] at hlookup
    cases hlookup
  | ok b =>
    rw [hb] at hlookup
    have hlength : b.data.length = 4 := Option.some.inj hlookup
    refine ⟨b, rfl, ?_⟩
    rw [Address.accessBytes, hbits, hdisp, hlength]
    decide

end AsmBridge
