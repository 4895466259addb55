import AsmBridge.Proofs.Conversion.Relocation
import AsmBridge.Proofs.Data.Labels

/-!
# Several labels of one datum

Labels without data between them name one blob, and the pool has one slot for it whichever of them
are used. The slot goes by the first label of the blob. An address finds the slot by its own symbol,
so that it is moved to the pool if it is written with the first label, and the conversion is given
up if it is written with another one.
-/

namespace AsmBridge

/-- The second address is the first one, perhaps with one of two symbols in place of the other. -/
inductive Address.Exchanged (s s' : String) : Address → Address → Prop
  | same (a : Address) : Exchanged s s' a a
  | forth {a : Address} (h : a.symbol = some s) : Exchanged s s' a { a with symbol := some s' }
  | back {a : Address} (h : a.symbol = some s') : Exchanged s s' a { a with symbol := some s }

/-- The addresses of the second function are those of the first one, some of them perhaps with one
of two symbols in place of the other. -/
def SourceFunction.Exchanged (s s' : String) (f f' : SourceFunction) : Prop :=
  List.Forall₂ (fun q q' => q.2.Exchanged s s' q'.2) f.addresses f'.addresses

/-! ## Slots of a pool -/

namespace Pool

/-- The symbols by which the slots of a pool go. -/
def symbols (p : Pool) : List String := p.slots.map (·.blob.symbol)

/-- A use of a blob leaves a slot for it beside those that were there. -/
lemma mem_symbols_withUse {p : Pool} {b : Blob} {access : ℤ} {symbol : String} :
    symbol ∈ (p.withUse b access).symbols ↔ symbol = b.symbol ∨ symbol ∈ p.symbols := by
  rw [symbols, symbols, withUse]
  dsimp only
  induction p.slots with
  | nil => simp [noteUse]
  | cons t rest ih =>
    rw [noteUse]
    split_ifs with heq
    · rw [beq_iff_eq] at heq
      simp [heq]
    · simp only [List.map_cons, List.mem_cons, ih]
      exact or_left_comm

/-- The symbol of a slot has an offset. -/
lemma exists_offset {p : Pool} {symbol : String} (h : symbol ∈ p.symbols) :
    ∃ n, p.offset? (some symbol) = some n := by
  obtain ⟨s, hs, rfl⟩ := List.mem_map.mp h
  rw [← p.map_fst_zip_offsets] at hs
  obtain ⟨q, hq, rfl⟩ := List.mem_map.mp hs
  have hsome : ((p.slots.zip p.offsets).find? fun q' =>
      some q'.1.blob.symbol == some q.1.blob.symbol).isSome = true := by
    rw [List.find?_isSome]
    exact ⟨q, hq, by simp⟩
  obtain ⟨q', hq'⟩ := Option.isSome_iff_exists.mp hsome
  exact ⟨q'.2, by rw [offset?, hq', Option.map_some]⟩

/-- There is no offset for a label that stands at one place and is not the first of its blob. -/
lemma offset?_eq_none {x : DataIndex} (hx : x.IsNamed) {p : Pool} (hp : p.IsFilledFrom x)
    {symbol : String} {b : Blob} (hb : x.lookup (some symbol) = .ok b)
    (honce : x.LabelsOnce symbol) (hne : b.symbol ≠ symbol) : p.offset? (some symbol) = none := by
  cases hn : p.offset? (some symbol) with
  | none => rfl
  | some n =>
    obtain ⟨t, ht, hsymbol, -⟩ := data_of_offset (fun s hs => (hp s hs).1) hn
    obtain ⟨-, other, hother⟩ := hp t ht
    rw [DataIndex.eq_of_symbol hx hother hsymbol hb honce] at hsymbol
    exact absurd hsymbol hne

end Pool

/-! ## Requests -/

section Requests

variable {x : DataIndex} {f f' : SourceFunction} {s s' : String}

/-- Exchanged symbols with the same data are requested alike. -/
lemma requireAddress_of_exchanged
    (hlookup : ∀ b, x.lookup (some s) = .ok b ↔ x.lookup (some s') = .ok b) {p p' : Pool}
    {q q' : Instruction × Address} (h : q.2.Exchanged s s' q'.2) :
    requireAddress x f p q = .ok p' ↔ requireAddress x f' p q' = .ok p' := by
  rw [requireAddress_eq_ok_iff, requireAddress_eq_ok_iff]
  obtain ⟨i, a⟩ := q
  obtain ⟨i', a'⟩ := q'
  dsimp only at h ⊢
  cases h with
  | same => rfl
  | forth hsymbol =>
    simp only [hsymbol, hlookup]
    rfl
  | back hsymbol =>
    simp only [hsymbol, hlookup]
    rfl

lemma requireAll_of_exchanged
    (hlookup : ∀ b, x.lookup (some s) = .ok b ↔ x.lookup (some s') = .ok b) {p : Pool}
    {ps ps' : List (Instruction × Address)}
    (h : List.Forall₂ (fun q q' => q.2.Exchanged s s' q'.2) ps ps') :
    (requireAll x f p ps).1 = (requireAll x f' p ps').1 := by
  induction h generalizing p with
  | nil => rfl
  | @cons q q' _ _ hq _ ih =>
    have hsame (p' : Pool) :
        requireAddress x f p q = .ok p' ↔ requireAddress x f' p q' = .ok p' :=
      requireAddress_of_exchanged hlookup hq
    rw [requireAll, requireAll]
    cases hok : requireAddress x f p q with
    | ok p' =>
      rw [(hsame p').mp hok]
      exact ih
    | error d =>
      cases hok' : requireAddress x f' p q' with
      | ok p' => cases hok.symm.trans ((hsame p').mpr hok')
      | error d' => rfl

/-- The pool of a unit does not depend on which of two symbols with the same data is used. -/
lemma requireConstants_of_exchanged
    (hlookup : ∀ b, x.lookup (some s) = .ok b ↔ x.lookup (some s') = .ok b) (name : String)
    {fs fs' : List SourceFunction} (h : List.Forall₂ (SourceFunction.Exchanged s s') fs fs') :
    (requireConstants x name fs).1 = (requireConstants x name fs').1 := by
  have hfold : ∀ acc acc' : Pool × List (String × Diagnostic), acc.1 = acc'.1 →
      (fs.foldl (requireFunction x) acc).1 = (fs'.foldl (requireFunction x) acc').1 := by
    induction h with
    | nil => exact fun _ _ hacc => hacc
    | @cons f f' _ _ hf _ ih =>
      intro acc acc' hacc
      refine ih _ _ ?_
      rw [requireFunction, requireFunction, hacc]
      exact requireAll_of_exchanged hlookup hf
  rw [requireConstants_eq, requireConstants_eq]
  exact hfold _ _ rfl

/-- Requests keep the slots. -/
lemma mem_symbols_requireAll {p : Pool} {ps : List (Instruction × Address)} {symbol : String}
    (h : symbol ∈ p.symbols) : symbol ∈ (requireAll x f p ps).1.symbols := by
  induction ps generalizing p with
  | nil => exact h
  | cons q rest ih =>
    rw [requireAll]
    split
    · rename_i p' hp'
      refine ih ?_
      rcases requireAddress_eq_ok_iff.mp hp' with ⟨-, rfl⟩ | ⟨-, b, -, rfl⟩
      · exact h
      · exact Pool.mem_symbols_withUse.mpr (.inr h)
    · exact h

/-- Requests without a defect leave a slot for the data of every address. -/
lemma symbol_mem_requireAll {p : Pool} {ps : List (Instruction × Address)}
    (h : (requireAll x f p ps).2 = none) {q : Instruction × Address} (hq : q ∈ ps)
    (hrip : q.2.ripRelative = true) {b : Blob} (hb : x.lookup q.2.symbol = .ok b) :
    b.symbol ∈ (requireAll x f p ps).1.symbols := by
  induction ps generalizing p with
  | nil => cases hq
  | cons c rest ih =>
    rw [requireAll] at h ⊢
    cases hok : requireAddress x f p c with
    | error d =>
      rw [hok] at h
      cases h
    | ok p' =>
      rw [hok] at h
      rcases List.mem_cons.mp hq with rfl | hq
      · refine mem_symbols_requireAll ?_
        rcases requireAddress_eq_ok_iff.mp hok with ⟨hfalse, -⟩ | ⟨-, c, hc, rfl⟩
        · cases hfalse.symm.trans hrip
        · obtain rfl := Except.ok.inj (hb.symm.trans hc)
          exact Pool.mem_symbols_withUse.mpr (.inl rfl)
      · exact ih h hq

lemma mem_symbols_foldl {fs : List SourceFunction} {acc : Pool × List (String × Diagnostic)}
    {symbol : String} (h : symbol ∈ acc.1.symbols) :
    symbol ∈ (fs.foldl (requireFunction x) acc).1.symbols := by
  induction fs generalizing acc with
  | nil => exact h
  | cons f rest ih => exact ih (mem_symbols_requireAll h)

/-- The pool of a unit has a slot for the data of every address of a function without a defect. -/
lemma symbol_mem_requireConstants {name : String} {fs : List SourceFunction} (hf : f ∈ fs)
    (h : (requireConstants x name fs).2.lookup f.label = none) {q : Instruction × Address}
    (hq : q ∈ f.addresses) (hrip : q.2.ripRelative = true) {b : Blob}
    (hb : x.lookup q.2.symbol = .ok b) : b.symbol ∈ (requireConstants x name fs).1.symbols := by
  rw [requireConstants_eq] at h ⊢
  obtain ⟨front, back, rfl, hturn⟩ := exists_turn_of_foldl hf h
  rw [List.foldl_append, List.foldl_cons]
  exact mem_symbols_foldl (symbol_mem_requireAll hturn hq hrip hb)

end Requests

/-! ## Two labels of one blob -/

/-- A pool has the data of a blob at the offset of its first label. An address with this label is
moved there, one with another label finds nothing. -/
structure Pool.Holds (p : Pool) (b : Blob) (a : Address) (n : ℕ) : Prop where
  offset : p.offset? (some b.symbol) = some n
  data : (p.data.drop n).take b.data.length = b.data
  rebase : ∀ r, p.rebase a r =
    if a.symbol = some b.symbol then .ok (a.rebase r (n + a.disp))
    else .error (.slotMissing a.symbol)

/-- Two labels of one blob in a unit, the second one not the first label of the blob. -/
structure AreAliases (text : String) (x : DataIndex) (s s' : String) : Prop where
  /-- The same data are found under both. -/
  lookup : ∀ b, x.lookup (some s) = .ok b ↔ x.lookup (some s') = .ok b
  later : ∀ b, x.lookup (some s) = .ok b → b.symbol ≠ s'
  /-- The pool does not depend on which of them functions use where. -/
  pool : ∀ name fs fs', List.Forall₂ (SourceFunction.Exchanged s s') fs fs' →
    (requireConstants x name fs).1 = (requireConstants x name fs').1
  /-- Once the data of functions are requested and the layout is fixed, the pool has those of the
  blob for every reference through one of the labels. -/
  placed : ∀ b, x.lookup (some s) = .ok b → ∀ name fs, ∀ f ∈ fs,
    (requireConstants x name fs).2.lookup f.label = none → ∀ q ∈ f.addresses,
      q.2.ripRelative = true → (q.2.symbol = some s ∨ q.2.symbol = some s') →
        ∃ n, (requireConstants x name fs).1.fix.Holds b q.2 n
  /-- In a converted unit nothing that is encoded refers to data through the second label. -/
  converted : ∀ o u, convert o text = .ok u → ∀ f ∈ u.functions, ∀ i ∈ f.source.instructions,
    Draft.clearsUpper i = false → ∀ a ∈ i.addresses, a.ripRelative = true → a.symbol ≠ some s'

section Unit

variable {text : String} {records front mid back : List Record} {x : DataIndex} {l l' : Label}

/-- The first label of a blob that is looked up finds it too, if it stands at one place only. -/
lemma DataIndex.lookup_symbol {x : DataIndex} (hx : x.IsNamed) {s : Option String} {b : Blob}
    (hb : x.lookup s = .ok b) (honce : x.LabelsOnce b.symbol) :
    x.lookup (some b.symbol) = .ok b := by
  obtain ⟨t, rfl, hfind⟩ := lookup_eq_ok hb
  obtain ⟨c, hc, -, rfl⟩ := exists_of_find? hfind
  have hsome : (x.blobs.find? fun d => d.labels.contains c.blob.symbol).isSome = true := by
    rw [List.find?_isSome]
    exact ⟨c, hc, by simpa using hx c hc⟩
  obtain ⟨d, hd⟩ := Option.isSome_iff_exists.mp hsome
  have hd' : x.find? c.blob.symbol = some d.blob := by rw [DataIndex.find?, hd, Option.map_some]
  obtain rfl := honce d (List.mem_of_find?_eq_some hd) c hc
    (by simpa using List.find?_some hd) (hx c hc)
  exact (lookup_eq_ok_iff hd').mpr ((lookup_eq_ok_iff hfind).mp hb)

/-- Where labels stand at one place only, the data of a reference are in the pool, and the reference
is moved to them if it is written with the first label of the blob. -/
lemma holds_of_lookup (hx : x.IsNamed) (honce : ∀ name, x.LabelsOnce name) {name : String}
    {fs : List SourceFunction} {f : SourceFunction} (hf : f ∈ fs)
    (hnone : (requireConstants x name fs).2.lookup f.label = none) {q : Instruction × Address}
    (hq : q ∈ f.addresses) (hrip : q.2.ripRelative = true) {b : Blob}
    (hb : x.lookup q.2.symbol = .ok b) :
    ∃ n, (requireConstants x name fs).1.fix.Holds b q.2 n := by
  have hfilled : (requireConstants x name fs).1.fix.IsFilledFrom x := requireConstants_isFilled
  have hmem : b.symbol ∈ (requireConstants x name fs).1.fix.symbols :=
    symbol_mem_requireConstants hf hnone hq hrip hb
  obtain ⟨n, hn⟩ := Pool.exists_offset hmem
  have hsymbol := DataIndex.lookup_symbol hx hb (honce _)
  refine ⟨n, hn, hfilled.data_of_offset hx hn hsymbol (honce _), fun r => ?_⟩
  obtain ⟨s, hs, -⟩ := DataIndex.lookup_eq_ok hb
  rw [hs] at hb
  rw [Pool.rebase, hs]
  split_ifs with heq
  · rw [heq, hn]
  · have hne : b.symbol ≠ s := fun h => heq (congrArg some h.symm)
    rw [Pool.offset?_eq_none hx hfilled hb (honce s) hne]

/-- Labels of read-only data without data between them are aliases, if all labels stand at one place
only. -/
theorem areAliases_of_gap (hread : Source.readUnit text = .ok records)
    (hx : DataIndex.ofRecords records = .ok x)
    (hrecords : records = front ++ .label l :: (mid ++ .label l' :: back))
    (hl : Section.isReadOnly (l.sect.getD "") = true)
    (hl' : Section.isReadOnly (l'.sect.getD "") = true)
    (hmid : ∀ r ∈ mid, DataIndex.isGap r = true)
    (hnodup : (records.filterMap DataIndex.name?).Nodup) : AreAliases text x l.name l'.name := by
  subst hrecords
  obtain ⟨b, hfind, hfind', hsymbol⟩ := DataIndex.find?_of_gap hx hl hl' hmid hnodup
  have hnamed := DataIndex.ofRecords_isNamed hx
  have honce := DataIndex.labelsOnce_of_nodup hx hnodup
  have hlookup : ∀ c, x.lookup (some l.name) = .ok c ↔ x.lookup (some l'.name) = .ok c := fun c =>
    (DataIndex.lookup_eq_ok_iff hfind).trans (DataIndex.lookup_eq_ok_iff hfind').symm
  have hlater : ∀ c, x.lookup (some l.name) = .ok c → c.symbol ≠ l'.name := by
    intro c hc
    obtain ⟨-, -, rfl⟩ := (DataIndex.lookup_eq_ok_iff hfind).mp hc
    exact hsymbol
  refine ⟨hlookup, hlater, ?_, ?_, ?_⟩
  · intro name fs fs' hfs
    exact requireConstants_of_exchanged hlookup name hfs
  · intro c hc name fs f hf hnone q hq hrip hq'
    refine holds_of_lookup hnamed honce hf hnone hq hrip ?_
    rcases hq' with heq | heq
    · rw [heq]
      exact hc
    · rw [heq]
      exact (hlookup c).mp hc
  · intro o u hu g hg i hi hclears a ha hrip heq
    obtain ⟨functions, x', hfunctions, hfilled, hdata, c, hpool, hfs⟩ := convert_eq_ok hu
    obtain ⟨records, hrecords, hx'⟩ := exists_records_of_readFunctions hfunctions
    obtain rfl := Except.ok.inj (hread.symm.trans hrecords)
    obtain rfl := Except.ok.inj (hx.symm.trans hx')
    obtain ⟨f, -, -, hmem, hconvert⟩ := exists_of_mem_right hfs hg
    obtain ⟨-, r, entry, exit, parts, -, -, -, hparts, -⟩ :=
      exists_lines_of_convertFunction hconvert
    rw [← hpool] at hfilled
    obtain ⟨-, symbol, n, d, hsymbol', hn, hd, -⟩ := data_of_gives hnamed hfilled hparts hi hclears
      ha hrip (hdata _ hmem i hi a ha hrip)
    obtain rfl := Option.some.inj (heq.symm.trans hsymbol')
    have hnone := Pool.offset?_eq_none hnamed hfilled hd (honce _) (hlater d ((hlookup d).mpr hd))
    exact nomatch hnone.symm.trans hn

/-- A table with an alignment directive between its labels, whose second word is loaded through the
first label. -/
theorem areAliases_of_gap_of_table :
    let text := String.join [
      ".section .rodata\n", "A:\n", ".p2align 2\n", "B: .long 1, 2\n", ".text\n", "f: push rbp\n",
      "mov rbp, rsp\n", "mov eax, [rip + A + 4]\n", "leave\n", "ret\n"]
    ∃ records x b u, Source.readUnit text = .ok records ∧ DataIndex.ofRecords records = .ok x ∧
      x.lookup (some "A") = .ok b ∧ convert {} text = .ok u ∧ AreAliases text x "A" "B" := by
  intro text
  let l : Label := ⟨"A", some 2, some ".rodata"⟩
  let l' : Label := ⟨"B", some 4, some ".rodata"⟩
  let align : Record := .directive ⟨".p2align", "2", some 3, some ".rodata"⟩
  obtain ⟨records, hread, hrecords, hnodup, hx⟩ : ∃ records, Source.readUnit text = .ok records ∧
      records = records.take 1 ++ .label l :: ([align] ++ .label l' :: records.drop 4) ∧
      (records.filterMap DataIndex.name?).Nodup ∧
      (DataIndex.ofRecords records).toOption.any (fun x => decide
        ((x.lookup (some "A")).toOption.any (fun b => decide
          (b.data = [1, 0, 0, 0, 2, 0, 0, 0])) = true)) = true :=
    exists_ok_of_any (by decide +kernel)
  obtain ⟨x, hx, hb⟩ := exists_ok_of_any hx
  obtain ⟨b, hb, -⟩ := exists_ok_of_any hb
  obtain ⟨u, hu, -⟩ : ∃ u, convert {} text = .ok u ∧ u.functions.length = 1 :=
    exists_ok_of_any (by decide +kernel)
  exact ⟨records, x, b, u, hread, hx, hb, hu, areAliases_of_gap hread hx hrecords
    (by decide +kernel) (by decide +kernel) (by decide +kernel) hnodup⟩

/-- A unit in which two labels stand at one word. It is converted if its function loads the word
through the first one, and given up if the function loads it through the second one. -/
theorem not_convert_of_alias :
    let text (symbol : String) := String.join [
      ".section .rodata\n", "A:\n", "B: .long 1\n", ".text\n", "f: push rbp\n", "mov rbp, rsp\n",
      "mov eax, [rip + ", symbol, "]\n", "leave\n", "ret\n"]
    (∀ symbol ∈ ["A", "B"], ∃ records x b, Source.readUnit (text symbol) = .ok records ∧
      DataIndex.ofRecords records = .ok x ∧ x.lookup (some "A") = .ok b ∧
      x.lookup (some "B") = .ok b ∧
      ∃ front l l' back, records = front ++ .label l :: .label l' :: back ∧
        l.name = "A" ∧ Section.isReadOnly (l.sect.getD "") = true ∧
        l'.name = "B" ∧ Section.isReadOnly (l'.sect.getD "") = true) ∧
    (∃ u, convert {} (text "A") = .ok u) ∧
    convert {} (text "B") = .error (.fault (.stop (.slotMissing (some "B")))) := by
  intro text
  refine ⟨fun symbol hsymbol => ?_, ?_, ?_⟩
  · let l : Label := ⟨"A", some 2, some ".rodata"⟩
    let l' : Label := ⟨"B", some 3, some ".rodata"⟩
    obtain ⟨records, hread, hrecords, hx⟩ : ∃ records,
        Source.readUnit (text symbol) = .ok records ∧
          records = records.take 1 ++ .label l :: .label l' :: records.drop 3 ∧
          (DataIndex.ofRecords records).toOption.any (fun x => decide
            ((x.lookup (some "A")).toOption.any (fun b => decide
              (x.lookup (some "B") = .ok b)) = true)) = true := by
      refine exists_ok_of_any ?_
      revert symbol
      decide +kernel
    obtain ⟨x, hx, hb⟩ := exists_ok_of_any hx
    obtain ⟨b, hb, hb'⟩ := exists_ok_of_any hb
    exact ⟨records, x, b, hread, hx, hb, hb', _, l, l', _, hrecords, rfl, by decide +kernel, rfl,
      by decide +kernel⟩
  · obtain ⟨u, hu, -⟩ : ∃ u, convert {} (text "A") = .ok u ∧ u.functions.length = 1 :=
      exists_ok_of_any (by decide +kernel)
    exact ⟨u, hu⟩
  · exact eq_of_stopOf (by decide +kernel)

end Unit

end AsmBridge
