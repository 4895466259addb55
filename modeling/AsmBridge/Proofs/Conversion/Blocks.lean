import AsmBridge.Proofs.Conversion.Declared
import AsmBridge.Proofs.Conversion.Form
import AsmBridge.Proofs.Function.Extents

/-!
# The blocks of a listing

The listing of a unit has one block for each function label, in order, and the block is the
conversion of the function of that label: of the last one, if the unit has several. Blocks have
symbols of their own exactly if no two functions have one label and no two names meet under the
prefix (`convert_blocks`). Names meet although they differ if one of them is the other one behind
the prefix, since a name that begins with the prefix does not get it again
(`not_convert_blocks`).
-/

namespace AsmBridge

/-! ## Symbols -/

namespace Options

/-- The two functions get one symbol: they have one name, or one has the name that the prefix makes
of the name of the other. -/
def Meet (o : Options) (f g : SourceFunction) : Prop :=
  f.name = g.name ∨
    (f.name = o.symbolPrefix ++ g.name ∧ Text.startsWith o.symbolPrefix g.name = false) ∨
    (g.name = o.symbolPrefix ++ f.name ∧ Text.startsWith o.symbolPrefix f.name = false)

instance (o : Options) (f g : SourceFunction) : Decidable (o.Meet f g) :=
  inferInstanceAs (Decidable (_ ∨ _))

lemma startsWith_append (lead s : String) : Text.startsWith lead (lead ++ s) = true := by
  rw [Text.startsWith_eq, List.isPrefixOf_iff_prefix, String.toList_append]
  exact List.prefix_append _ _

lemma symbol_eq_iff (o : Options) (f g : SourceFunction) :
    o.symbol f = o.symbol g ↔ o.Meet f g := by
  have hne : ∀ {s t : String}, Text.startsWith o.symbolPrefix s = false →
      s ≠ o.symbolPrefix ++ t := by
    rintro s t hs rfl
    exact nomatch hs.symm.trans (startsWith_append _ _)
  rw [symbol, symbol, Meet]
  cases hf : Text.startsWith o.symbolPrefix f.name <;>
    cases hg : Text.startsWith o.symbolPrefix g.name
  · simp [hne hf, hne hg]
  · have hnames : f.name ≠ g.name := fun heq => by simp [heq, hg] at hf
    simp [hnames, eq_comm]
  · have hnames : f.name ≠ g.name := fun heq => by simp [heq, hg] at hf
    simp [hnames]
  · simp

lemma nodup_symbols_iff (o : Options) (fs : List SourceFunction) :
    (fs.map o.symbol).Nodup ↔ fs.Pairwise fun f g => ¬ o.Meet f g := by
  rw [List.Nodup, List.pairwise_map]
  exact ⟨fun h => h.imp fun hne => mt (symbol_eq_iff o _ _).mpr hne,
    fun h => h.imp fun hmeet => mt (symbol_eq_iff o _ _).mp hmeet⟩

end Options

/-! ## Functions of one label -/

/-- The function is the last one with its label. -/
def IsLastOf (functions : List SourceFunction) (f : SourceFunction) : Prop :=
  ∃ front back, functions = front ++ f :: back ∧ ∀ g ∈ back, g.label ≠ f.label

lemma IsLastOf.mem {functions : List SourceFunction} {f : SourceFunction}
    (h : IsLastOf functions f) : f ∈ functions := by
  obtain ⟨front, back, rfl, -⟩ := h
  exact List.mem_append_right _ List.mem_cons_self

/-- What is found under a label is the conversion of the last function with this label. -/
lemma exists_last_of_lookup {c : UnitContext} {fs : List SourceFunction}
    {results : List (Except (List Diagnostic) ConvertedFunction)}
    (hresults : fs.mapM (convertFunction c) = .ok results) {l : String}
    {result : Except (List Diagnostic) ConvertedFunction}
    (h : ((fs.map (·.label)).zip results).reverse.lookup l = some result) :
    ∃ f, IsLastOf fs f ∧ f.label = l ∧ convertFunction c f = .ok result := by
  have hrows := mapM_eq_ok.mp hresults
  obtain ⟨behind, before, heq, hbehind⟩ := List.lookup_eq_some_iff.mp h
  -- The row of pairs is searched from its end.
  have hzip : (fs.zip results).map (Prod.map (·.label) id) =
      before.reverse ++ (l, result) :: behind.reverse := by
    rw [← List.zip_map_left, ← List.reverse_reverse ((fs.map (·.label)).zip results), heq]
    simp
  obtain ⟨front, rest, hsplit, -, hrest⟩ := List.map_eq_append_iff.mp hzip
  obtain ⟨⟨f, result'⟩, back, rfl, hpair, hback⟩ := List.map_eq_cons_iff.mp hrest
  obtain ⟨rfl, rfl⟩ := Prod.mk.inj hpair
  have hfs : fs = front.map (·.1) ++ f :: back.map (·.1) := by
    have hfst := List.map_fst_zip hrows.length_eq.le
    rw [hsplit, List.map_append, List.map_cons] at hfst
    exact hfst.symm
  refine ⟨f, ⟨front.map (·.1), back.map (·.1), hfs, ?_⟩, rfl, ?_⟩
  · intro g hg hlabel
    obtain ⟨p, hp, rfl⟩ := List.mem_map.mp hg
    have hmem : Prod.map (·.label) id p ∈ behind := by
      rw [← List.mem_reverse, ← hback]
      exact List.mem_map_of_mem hp
    have hne := hbehind _ hmem
    simp [hlabel] at hne
  · refine List.forall₂_zip hrows (b := result') ?_
    rw [hsplit]
    exact List.mem_append_right _ List.mem_cons_self

section Unit

variable {o : Options} {text : String} {functions : List SourceFunction} {x : DataIndex}
  {u : ConvertedUnit}

/-- A unit that is converted has for each function the conversion of the last function with its
label. -/
lemma exists_last_of_convert (h : convert o text = .ok u) :
    ∃ functions x, readFunctions text = .ok (functions, x) ∧
      List.Forall₂ (fun f g => g.source.label = f.label ∧ IsLastOf functions g.source ∧
        convertFunction (unitContext o x functions) g.source = .ok (.ok g)) functions u.functions ∧
      renderUnit o.style u.pool u.functions = .ok u.text := by
  obtain ⟨functions, x, results, hread, -, -, hresults, hdivide, -, hlisting⟩ :=
    convert_eq_ok_iff.mp h
  have houtcome := fun {f} (hf : f ∈ functions) =>
    exists_outcome rfl hresults (congrArg Prod.fst hdivide) hf
  have htodo : todo o x functions = functions :=
    List.filter_eq_self.mpr fun f hf => by rw [(houtcome hf).1]; rfl
  rw [htodo] at hresults
  have hfs : List.Forall₂ (fun f g => g.source.label = f.label ∧ IsLastOf functions g.source ∧
      convertFunction (unitContext o x functions) g.source = .ok (.ok g)) functions
      (divide (outcomes o x functions results)).2 := by
    refine divide_eq fun f hf => ?_
    obtain ⟨hfailed, g, hg, hlabel, -, hconvert⟩ := houtcome hf
    refine ⟨g, hg, hlabel, ?_, hconvert⟩
    change outcome _ ((todo o x functions).map (·.label) |>.zip results) f = .ok g at hg
    rw [outcome, hfailed, htodo] at hg
    cases hlookup : ((functions.map (·.label)).zip results).reverse.lookup f.label with
    | none => exact absurd hlookup (lookup_ne_none hresults hf)
    | some r =>
      simp only [hlookup] at hg
      subst hg
      obtain ⟨f', hlast, -, hf'⟩ := exists_last_of_lookup hresults hlookup
      obtain ⟨-, p, -, hbody⟩ := convertFunction_eq_ok_iff.mp hf'
      rwa [(fields_of_convertBody hbody).1]
  rw [hdivide] at hfs
  exact ⟨functions, x, hread, hfs, hlisting⟩

end Unit

/-! ## Heads of blocks -/

/-- The row of a listing begins a block. -/
def isBlockHead (row : String) : Bool := Text.startsWith "TEXT " row

/-- The first row of the block of a function, but for an empty one. -/
def ConvertedFunction.head (g : ConvertedFunction) : String :=
  blockHead g.symbol g.layout.size g.signature.argBytes

lemma isBlockHead_head (g : ConvertedFunction) : isBlockHead g.head = true := by
  simp [isBlockHead, ConvertedFunction.head, blockHead, Text.startsWith_eq, String.toList_append,
    List.isPrefixOf]

section Heads

variable {style : ListingStyle}

/-- The items that are labels have symbols for names. -/
def Item.IsSymbolic : Item → Prop
  | .label name => IsSymbol name
  | _ => True

/-- The lines of an item begin no block. -/
lemma isBlockHead_lines {item : Item} {lines : List String} (hitem : item.IsSymbolic)
    (h : item.lines style = .ok lines) : ∀ row ∈ lines, isBlockHead row = false := by
  have htab : ∀ s : String, isBlockHead ("\t" ++ s) = false := fun s => by
    simp [isBlockHead, Text.startsWith_eq, String.toList_append, List.isPrefixOf]
  cases item with
  | label name =>
    obtain rfl := Except.ok.inj h
    rw [List.forall_mem_singleton, Bool.eq_false_iff, isBlockHead, Text.startsWith_eq]
    intro hhead
    rw [List.isPrefixOf_iff_prefix, String.toList_append, targetLabel, String.toList_ofList]
      at hhead
    -- A head has a blank in it, which no symbol has.
    have hmem : ' ' ∈ "TEXT ".toList := by simp
    rcases List.mem_append.mp (hhead.subset hmem) with hblank | hblank
    · obtain ⟨c, rest, hname, hstart, hrest⟩ := hitem
      rw [String.toList_ofList] at hblank
      have hblank : ' ' ∈ name.toList := (List.dropWhile_sublist _).subset hblank
      rw [hname] at hblank
      rcases List.mem_cons.mp hblank with rfl | hmem
      · exact absurd hstart (by decide)
      · exact absurd (hrest _ hmem) (by decide)
    · exact absurd hblank (by decide)
  | directive d =>
    obtain rfl := Except.ok.inj h
    split
    · refine List.forall_mem_singleton.mpr ?_
      have hrow : "\t// " ++ d.text = "\t" ++ ("// " ++ d.text) := by
        rw [← String.append_assoc]
        rfl
      rw [hrow]
      exact htab _
    · simp
  | code bytes source =>
    obtain rfl := Except.ok.inj h
    exact List.forall_mem_singleton.mpr (htab _)
  | native t =>
    obtain rfl := Except.ok.inj h
    exact List.forall_mem_singleton.mpr (htab _)
  | verbatim s =>
    obtain rfl := Except.ok.inj h
    exact List.forall_mem_singleton.mpr (htab _)
  | other shown => cases h

/-- The labels of a converted function are those of its body. -/
lemma isSymbolic_of_convertFunction {c : UnitContext} {f : SourceFunction} {g : ConvertedFunction}
    (hf : ∀ b ∈ f.body, b.IsWritten) (h : convertFunction c f = .ok (.ok g)) :
    ∀ item ∈ g.items, item.IsSymbolic := by
  refine forall_items_of_convertFunction (fun _ => trivial) (fun b hb _ _ _ hgives l hl => ?_) h
  have hnative : ∀ ts : List TargetInstruction, l ∈ ts.map Line.native → l.item.IsSymbolic := by
    intro ts hl
    obtain ⟨t, -, rfl⟩ := List.mem_map.mp hl
    trivial
  cases hgives with
  | label l' =>
    obtain rfl := List.mem_singleton.mp hl
    exact hf _ hb
  | call _ _ _ _ => exact hnative _ hl
  | epilogue _ => exact hnative _ hl
  | _ =>
    obtain rfl := List.mem_singleton.mp hl
    trivial

/-- The block of a function has one head. -/
lemma filter_isBlockHead_block {g : ConvertedFunction} {block : List String}
    (hitems : ∀ item ∈ g.items, item.IsSymbolic) (h : renderFunction style g = .ok block) :
    block.filter isBlockHead = [g.head] := by
  obtain ⟨parts, hparts, rfl⟩ := renderFunction_eq_ok.mp h
  have hrest : parts.flatten.filter isBlockHead = [] := by
    rw [List.filter_eq_nil_iff]
    intro row hrow
    obtain ⟨lines, hlines, hrow⟩ := List.mem_flatten.mp hrow
    obtain ⟨item, hitem, hitemLines⟩ := exists_of_mem_right hparts hlines
    exact Bool.eq_false_iff.mp (isBlockHead_lines (hitems item hitem) hitemLines row hrow)
  have hempty : isBlockHead "" = false := by decide
  have hhead : isBlockHead (blockHead g.symbol g.layout.size g.signature.argBytes) = true :=
    isBlockHead_head g
  rw [List.filter_cons_of_neg (Bool.eq_false_iff.mp hempty), List.filter_cons_of_pos hhead, hrest]
  rfl

/-- The blocks of functions have their heads. -/
lemma filter_isBlockHead_blocks {gs : List ConvertedFunction} {blocks : List (List String)}
    (hitems : ∀ g ∈ gs, ∀ item ∈ g.items, item.IsSymbolic)
    (h : List.Forall₂ (fun g block => renderFunction style g = .ok block) gs blocks) :
    blocks.flatten.filter isBlockHead = gs.map ConvertedFunction.head := by
  induction h with
  | nil => rfl
  | cons hblock _ ih =>
    obtain ⟨hg, hgs⟩ := List.forall_mem_cons.mp hitems
    rw [List.flatten_cons, List.filter_append, filter_isBlockHead_block hg hblock, ih hgs]
    rfl

/-- The rows in front of the blocks are no heads. -/
lemma isBlockHead_front {pool : Pool} {rows : List String} (h : renderPool pool = .ok rows) :
    (listingHeader ++ if rows.isEmpty then [] else "" :: rows).filter isBlockHead = [] := by
  have hdata : ∀ s : String, isBlockHead ("DATA " ++ s) = false := fun s => by
    simp [isBlockHead, Text.startsWith_eq, String.toList_append, List.isPrefixOf]
  have hglobl : ∀ s : String, isBlockHead ("GLOBL " ++ s) = false := fun s => by
    simp [isBlockHead, Text.startsWith_eq, String.toList_append, List.isPrefixOf]
  have hrows : ∀ row ∈ rows, isBlockHead row = false := by
    rw [renderPool] at h
    split at h
    · obtain rfl := Except.ok.inj h
      simp
    · obtain ⟨data, -, rfl⟩ := map_eq_ok.mp h
      intro row hrow
      rcases List.mem_append.mp hrow with hrow | hrow
      · obtain ⟨p, -, rfl⟩ := List.mem_map.mp hrow
        simp only [poolLine, String.append_assoc]
        exact hdata _
      · rw [List.mem_singleton.mp hrow]
        simp only [String.append_assoc]
        exact hglobl _
  have hheader : listingHeader.filter isBlockHead = [] := by decide
  rw [List.filter_append, hheader, List.nil_append, List.filter_eq_nil_iff]
  intro row hrow
  rw [Bool.not_eq_true]
  split at hrow
  · cases hrow
  · rcases List.mem_cons.mp hrow with rfl | hrow
    · decide
    · exact hrows row hrow

end Heads

/-! ## Units -/

/-- The functions of a unit have its function labels. -/
lemma labels_of_extractFunctions {records : List Record} {functions : List SourceFunction}
    (h : extractFunctions records = .ok functions) :
    functions.map (·.label) = (functionLabels records).map (·.name) := by
  obtain ⟨es, hdivided, hfs⟩ := exists_extents h
  rw [hdivided.functionLabels, List.map_map]
  exact map_eq_map_iff_forall₂.mpr (hfs.imp fun f e hf => hf.label)

/-- The heads in a listing are those of its blocks. -/
lemma exists_blocks_of_renderUnit {style : ListingStyle} {pool : Pool} {gs : List ConvertedFunction}
    {text : String} (hitems : ∀ g ∈ gs, ∀ item ∈ g.items, item.IsSymbolic)
    (h : renderUnit style pool gs = .ok text) :
    ∃ front blocks, text = joinLines (front ++ blocks.flatten) ∧
      List.Forall₂ (fun g block => renderFunction style g = .ok block) gs blocks ∧
      (front ++ blocks.flatten).filter isBlockHead = gs.map ConvertedFunction.head := by
  obtain ⟨poolText, hpool, h⟩ := bind_eq_ok.mp h
  obtain ⟨blocks, hblocks, h⟩ := bind_eq_ok.mp h
  have hblocks := mapM_eq_ok.mp hblocks
  refine ⟨_, blocks, (pure_eq_ok.mp h).symm, hblocks, ?_⟩
  rw [List.filter_append, isBlockHead_front hpool, List.nil_append,
    filter_isBlockHead_blocks hitems hblocks]

section Rows

variable {c : UnitContext} {functions : List SourceFunction} {gs : List ConvertedFunction}

/-- A function is converted under its symbol. -/
lemma symbol_eq_of_convertFunction {f : SourceFunction} {g : ConvertedFunction}
    (h : convertFunction c f = .ok (.ok g)) : g.symbol = c.options.symbol f := by
  obtain ⟨-, p, -, hbody⟩ := convertFunction_eq_ok_iff.mp h
  exact (fields_of_convertBody hbody).2.1

/-- If all labels differ, each function is the last one with its label. -/
lemma sources_of_nodup
    (h : List.Forall₂ (fun f g => g.source.label = f.label ∧ IsLastOf functions g.source ∧
      convertFunction c g.source = .ok (.ok g)) functions gs)
    (hnodup : (functions.map (·.label)).Nodup) : gs.map (·.source) = functions := by
  have hrow : List.Forall₂ (fun f g => f = ConvertedFunction.source g) functions gs := by
    refine ((List.forall₂_and_left _ _).mpr ⟨fun f hf => hf, h⟩).imp ?_
    rintro f g ⟨hf, hlabel, hlast, -⟩
    exact (eq_of_label_eq hnodup hlast.mem hf hlabel).symm
  rw [← map_eq_map_iff_forall₂.mpr hrow, List.map_id']

/-- If all labels differ, blocks have the symbols of their functions. -/
lemma symbols_of_nodup
    (h : List.Forall₂ (fun f g => g.source.label = f.label ∧ IsLastOf functions g.source ∧
      convertFunction c g.source = .ok (.ok g)) functions gs)
    (hnodup : (functions.map (·.label)).Nodup) :
    gs.map (·.symbol) = functions.map c.options.symbol := by
  have hsymbol : ∀ g ∈ gs, g.symbol = c.options.symbol g.source := by
    intro g hg
    obtain ⟨f, -, -, -, hconvert⟩ := exists_of_mem_right h hg
    exact symbol_eq_of_convertFunction hconvert
  rw [List.map_congr_left hsymbol, ← sources_of_nodup h hnodup, List.map_map]
  rfl

end Rows

/-- The listing of a unit has one block for each function label, in order. The block is the
conversion of a function by itself, of the last one with the label, and hence of the function of the
label itself if all labels differ. Blocks have symbols of their own exactly if all labels differ and
no two names meet. -/
theorem convert_blocks {o : Options} {text : String} {u : ConvertedUnit}
    (h : convert o text = .ok u) :
    ∃ records functions x, Source.readUnit text = .ok records ∧
      readFunctions text = .ok (functions, x) ∧
      functions.map (·.label) = (functionLabels records).map (·.name) ∧
      List.Forall₂ (fun f g => g.source.label = f.label ∧ IsLastOf functions g.source ∧
        convertFunction (unitContext o x functions) g.source = .ok (.ok g) ∧
        g.symbol = o.symbol g.source) functions u.functions ∧
      ((functions.map (·.label)).Nodup → u.functions.map (·.source) = functions) ∧
      (∃ front blocks, u.text = joinLines (front ++ blocks.flatten) ∧
        List.Forall₂ (fun g block => renderFunction o.style g = .ok block) u.functions blocks ∧
        (front ++ blocks.flatten).filter isBlockHead =
          u.functions.map ConvertedFunction.head) ∧
      ((u.functions.map (·.symbol)).Nodup ↔
        (functions.map (·.label)).Nodup ∧ functions.Pairwise fun f g => ¬ o.Meet f g) := by
  obtain ⟨functions, x, hread, hfs, hlisting⟩ := exists_last_of_convert h
  obtain ⟨records, hrecords, hextract, -⟩ := readFunctions_eq_ok.mp hread
  have hsymbols : (functions.map (·.label)).Nodup →
      u.functions.map (·.symbol) = functions.map o.symbol := symbols_of_nodup hfs
  refine ⟨records, functions, x, hrecords, hread, labels_of_extractFunctions hextract,
    hfs.imp fun f g hg => ⟨hg.1, hg.2.1, hg.2.2, symbol_eq_of_convertFunction hg.2.2⟩,
    sources_of_nodup hfs, exists_blocks_of_renderUnit ?_ hlisting, ?_⟩
  · intro g hg
    obtain ⟨f, -, -, hlast, hconvert⟩ := exists_of_mem_right hfs hg
    exact isSymbolic_of_convertFunction
      (extractFunctions_isWritten hrecords hextract hlast.mem).2 hconvert
  · constructor
    · intro hnodup
      -- Blocks of one label are the same block, so that symbols can only differ if labels do.
      obtain ⟨functions', x', heach⟩ := exists_convertsEach h hnodup
      obtain ⟨rfl, rfl⟩ := Prod.mk.inj (Except.ok.inj (heach.read.symm.trans hread))
      rw [hsymbols heach.labels, o.nodup_symbols_iff] at hnodup
      exact ⟨heach.labels, hnodup⟩
    · rintro ⟨hnodup, hmeet⟩
      rwa [hsymbols hnodup, o.nodup_symbols_iff]

/-- Two functions, one of them in a section of the other kind, where labels have an underscore more
than names. -/
theorem convert_blocks_of_two :
    let text := String.join [
      "f: push rbp\n", "mov rbp, rsp\n", "mov rax, rdi\n", "leave\n", "ret\n",
      ".section __TEXT,__text\n", "_g: push rbp\n", "mov rbp, rsp\n", "leave\n", "ret\n"]
    ∃ u functions x, convert {} text = .ok u ∧ readFunctions text = .ok (functions, x) ∧
      functions.map (·.label) = ["f", "_g"] ∧ u.functions.map (·.source) = functions ∧
      (u.functions.map (·.symbol)).Nodup ∧
      ∃ rows, u.text = joinLines rows ∧
        rows.filter isBlockHead = ["TEXT ·_f(SB), $0-8", "TEXT ·_g(SB), $0-0"] := by
  intro text
  obtain ⟨u, hu, hlabels, hmeet, hheads⟩ : ∃ u, convert {} text = .ok u ∧
      u.functions.map (·.source.label) = ["f", "_g"] ∧
      (u.functions.map (·.source)).Pairwise (fun f g => ¬ ({} : Options).Meet f g) ∧
      u.functions.map ConvertedFunction.head = ["TEXT ·_f(SB), $0-8", "TEXT ·_g(SB), $0-0"] :=
    exists_ok_of_any (by decide +kernel)
  obtain ⟨records, functions, x, -, hread, -, hfs, hsources, ⟨front, blocks, htext, -, hrows⟩,
    hsymbols⟩ := convert_blocks hu
  have hrow : functions.map (·.label) = ["f", "_g"] := by
    rw [← hlabels]
    exact map_eq_map_iff_forall₂.mpr (hfs.imp fun f g hg => hg.1.symm)
  have hnodup : (functions.map (·.label)).Nodup := by
    rw [hrow]
    decide
  refine ⟨u, functions, x, hu, hread, hrow, hsources hnodup, hsymbols.mpr ⟨hnodup, ?_⟩, _, htext,
    hrows.trans hheads⟩
  rwa [hsources hnodup] at hmeet

/-- Two units whose blocks are not those of their functions. The names of the first one meet, so
that both blocks have one symbol. The second one has a label twice, and both blocks are the
conversion of the second function. -/
theorem not_convert_blocks :
    let underscored := String.join [
      "f: push rbp\n", "mov rbp, rsp\n", "leave\n", "ret\n",
      "_f: push rbp\n", "mov rbp, rsp\n", "leave\n", "ret\n"]
    let repeated := String.join [
      "f: push rbp\n", "mov rbp, rsp\n", "leave\n", "ret\n",
      "f: push rbp\n", "mov rbp, rsp\n", "mov rax, rdi\n", "leave\n", "ret\n"]
    (∃ u, convert {} underscored = .ok u ∧
      u.functions.map (·.source.label) = ["f", "_f"] ∧
      u.functions.map (·.symbol) = ["_f", "_f"]) ∧
    ∃ u functions x, convert {} repeated = .ok u ∧
      readFunctions repeated = .ok (functions, x) ∧
      functions.map (·.instructions.length) = [0, 1] ∧
      u.functions.map (·.source.instructions.length) = [1, 1] := by
  intro underscored repeated
  refine ⟨exists_ok_of_any (by decide +kernel), ?_⟩
  obtain ⟨u, hu, hsources⟩ : ∃ u, convert {} repeated = .ok u ∧
      u.functions.map (·.source.instructions.length) = [1, 1] :=
    exists_ok_of_any (by decide +kernel)
  obtain ⟨⟨functions, x⟩, hread, hlengths⟩ : ∃ r, readFunctions repeated = .ok r ∧
      r.1.map (·.instructions.length) = [0, 1] :=
    exists_ok_of_any (by decide +kernel)
  exact ⟨u, functions, x, hu, hread, hlengths, hsources⟩

end AsmBridge
