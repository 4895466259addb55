import AsmBridge.Proofs.Conversion.Transfers
import AsmBridge.Proofs.Source.Texts
import AsmBridge.Proofs.Target.Reading

/-!
# The form of a listing

What a listing shows besides the code, how many functions are converted at a time and how a unit is
named in diagnostics make no difference to the code: the unit is converted or not, its functions and
its pool are the same, and the listing reads the same (`convert_of_sameCode`). Each line of machine
code in the listing reads as the bytes that its instruction was encoded to.
-/

namespace AsmBridge

/-- The options ask for the same code: they differ at most in the style of the listing, in the
number of jobs and in the name of the unit. -/
structure Options.SameCode (o o' : Options) : Prop where
  symbolPrefix : o.symbolPrefix = o'.symbolPrefix
  poolName : o.poolName = o'.poolName
  stubPackage : o.stubPackage = o'.stubPackage
  allowedCalls : o.allowedCalls = o'.allowedCalls
  prototypes : o.prototypes = o'.prototypes
  jobs : o.jobs.isSome = o'.jobs.isSome

lemma Options.SameCode.symm {o o' : Options} (h : o.SameCode o') : o'.SameCode o :=
  ⟨h.symbolPrefix.symm, h.poolName.symm, h.stubPackage.symm, h.allowedCalls.symm,
    h.prototypes.symm, h.jobs.symm⟩

/-! ## Listings -/

section Listing

variable {style : ListingStyle} {pool : Pool} {fs : List ConvertedFunction}

/-- A computation for each member of a list has values if each member has one. -/
lemma exists_mapM {ε α β : Type} {f : α → Except ε β} {as : List α}
    (h : ∀ a ∈ as, ∃ b, f a = .ok b) : ∃ bs, as.mapM f = .ok bs := by
  induction as with
  | nil => exact ⟨[], rfl⟩
  | cons a as ih =>
    obtain ⟨⟨b, hb⟩, has⟩ := List.forall_mem_cons.mp h
    obtain ⟨bs, hbs⟩ := ih has
    exact ⟨b :: bs, mapM_eq_ok.mpr (.cons hb (mapM_eq_ok.mp hbs))⟩

/-- Where each row is read as what it is related to, so are the rows one after another. -/
lemma flatMap_flatten {α β γ : Type} {R : α → List β → Prop} {as : List α} {rows : List (List β)}
    {read : β → List γ} {reading : α → List γ} (h : List.Forall₂ R as rows)
    (hread : ∀ a ∈ as, ∀ row, R a row → row.flatMap read = reading a) :
    rows.flatten.flatMap read = as.flatMap reading := by
  induction h with
  | nil => rfl
  | @cons a row as rows hrow _ ih =>
    obtain ⟨ha, has⟩ := List.forall_mem_cons.mp hread
    rw [List.flatten_cons, List.flatMap_append, List.flatMap_cons, ih has, ha row hrow]

/-- The lines of a block are its head and those of its items. -/
lemma renderFunction_eq_ok {g : ConvertedFunction} {block : List String} :
    renderFunction style g = .ok block ↔
      ∃ parts, List.Forall₂ (fun item lines => item.lines style = .ok lines) g.items parts ∧
        block = "" :: blockHead g.symbol g.layout.size g.signature.argBytes :: parts.flatten := by
  constructor
  · intro h
    obtain ⟨lines, hlines, rfl⟩ := map_eq_ok.mp h
    obtain ⟨parts, hparts, rfl⟩ := map_eq_ok.mp hlines
    exact ⟨parts, mapM_eq_ok.mp hparts, rfl⟩
  · rintro ⟨parts, hparts, rfl⟩
    exact map_eq_ok.mpr ⟨_, map_eq_ok.mpr ⟨parts, mapM_eq_ok.mpr hparts, rfl⟩, rfl⟩

/-- A unit that has a listing in one style has a listing in every style. -/
lemma exists_renderUnit {text : String} (h : renderUnit style pool fs = .ok text)
    (style' : ListingStyle) : ∃ text', renderUnit style' pool fs = .ok text' := by
  obtain ⟨poolLines, hpool, h⟩ := bind_eq_ok.mp h
  obtain ⟨blocks, hblocks, -⟩ := bind_eq_ok.mp h
  obtain ⟨blocks', hblocks'⟩ : ∃ blocks', fs.mapM (renderFunction style') = .ok blocks' := by
    refine exists_mapM fun g hg => ?_
    obtain ⟨block, -, hblock⟩ := exists_of_mem_left (mapM_eq_ok.mp hblocks) hg
    obtain ⟨parts, hparts, -⟩ := renderFunction_eq_ok.mp hblock
    obtain ⟨parts', hparts'⟩ : ∃ parts', g.items.mapM (Item.lines style') = .ok parts' := by
      refine exists_mapM fun item hitem => ?_
      obtain ⟨lines, -, hlines⟩ := exists_of_mem_left hparts hitem
      exact exists_lines_of_style hlines style'
    exact ⟨_, renderFunction_eq_ok.mpr ⟨parts', mapM_eq_ok.mp hparts', rfl⟩⟩
  exact ⟨_, bind_eq_ok.mpr ⟨poolLines, hpool, bind_eq_ok.mpr ⟨blocks', hblocks', rfl⟩⟩⟩

/-- What the lines of a block say, in every style. -/
lemma readListing_renderFunction {g : ConvertedFunction} {block : List String}
    (hitems : ∀ item ∈ g.items, item.IsOnOneLine) (h : renderFunction style g = .ok block) :
    (block.flatMap fun line => readListing line.toList) = g.reading := by
  obtain ⟨parts, hparts, rfl⟩ := renderFunction_eq_ok.mp h
  have hlines : (parts.flatten.flatMap fun line => readListing line.toList) =
      g.items.flatMap Item.reading :=
    flatMap_flatten hparts fun item hitem lines hlines =>
      flatMap_readListing_lines (hitems item hitem) hlines
  have hempty : readListing "".toList = [] := rfl
  rw [List.flatMap_cons, List.flatMap_cons, hlines, ConvertedFunction.reading, hempty,
    List.nil_append]

/-- What a listing says is what its head and the blocks of its functions say, in every style. -/
lemma readListing_renderUnit {text : String} (hfs : ∀ g ∈ fs, ∀ item ∈ g.items, item.IsOnOneLine)
    (h : renderUnit style pool fs = .ok text) :
    ∃ poolLines, renderPool pool = .ok poolLines ∧ readListing text.toList =
      ((listingHeader ++ if poolLines.isEmpty then [] else "" :: poolLines).flatMap fun line =>
        readListing line.toList) ++ fs.flatMap ConvertedFunction.reading := by
  obtain ⟨poolLines, hpool, h⟩ := bind_eq_ok.mp h
  obtain ⟨blocks, hblocks, h⟩ := bind_eq_ok.mp h
  have hreading : (blocks.flatten.flatMap fun line => readListing line.toList) =
      fs.flatMap ConvertedFunction.reading :=
    flatMap_flatten (mapM_eq_ok.mp hblocks) fun g hg block hblock =>
      readListing_renderFunction (hfs g hg) hblock
  refine ⟨poolLines, hpool, ?_⟩
  rw [← pure_eq_ok.mp h, readListing_joinLines, List.flatMap_append, hreading]

end Listing

/-! ## Items -/

/-- The lines of a body whose texts are such as a line can give are on one line each. -/
lemma isOnOneLine_of_gives {pool : Pool} {r : Option Register} {exit : List TargetInstruction}
    {b : BodyItem} {lines : List Line} (hb : b.IsWritten) (h : b.Gives pool r exit lines) :
    ∀ l ∈ lines, l.item.IsOnOneLine := by
  have hnative : ∀ ts : List TargetInstruction, ∀ l ∈ ts.map Line.native, l.item.IsOnOneLine := by
    intro ts l hl
    obtain ⟨t, -, rfl⟩ := List.mem_map.mp hl
    trivial
  cases h with
  | label l => exact List.forall_mem_singleton.mpr trivial
  | directive d => exact List.forall_mem_singleton.mpr hb
  | data _ =>
    refine List.forall_mem_singleton.mpr ?_
    rintro s ⟨⟩
    exact hb
  | kept _ _ _ =>
    refine List.forall_mem_singleton.mpr ?_
    rintro s ⟨⟩
    exact hb
  | jump _ _ _ _ => exact List.forall_mem_singleton.mpr trivial
  | clears _ _ _ => exact List.forall_mem_singleton.mpr trivial
  | call _ _ _ _ => exact hnative _
  | epilogue _ => exact hnative _

/-- The items of a converted function are on one line each. -/
lemma isOnOneLine_of_convertFunction {c : UnitContext} {f : SourceFunction} {g : ConvertedFunction}
    (hf : ∀ b ∈ f.body, b.IsWritten) (h : convertFunction c f = .ok (.ok g)) :
    ∀ item ∈ g.items, item.IsOnOneLine :=
  forall_items_of_convertFunction (fun _ => trivial)
    (fun b hb _ _ _ hgives => isOnOneLine_of_gives (hf b hb) hgives) h

/-- The block of a function shows its code: its lines are those before the body and then those of
each record of the body in order, and the one line of each encoded instruction reads as the bytes
that the instruction was encoded to. -/
def ShowsCode (pool : Pool) (style : ListingStyle) (g : ConvertedFunction) (block : List String) :
    Prop :=
  ∃ (r : Option Register) (entry exit : List TargetInstruction) (parts : List (List Line))
    (shown : List (List String)),
    List.Forall₂ (BodyItem.Gives pool r exit) g.source.body parts ∧
    List.Forall₂ (fun (l : Line) lines => l.item.lines style = .ok lines)
      (entry.map .native ++ parts.flatten) shown ∧
    block = "" :: blockHead g.symbol g.layout.size g.signature.argBytes :: shown.flatten ∧
    ∀ i ops bytes, Line.kept i ops bytes ∈ parts.flatten →
      encode i.mnemonic i.mark ops = .ok bytes ∧
      ∃ line, (Line.kept i ops bytes).item.lines style = .ok [line] ∧ '\n' ∉ line.toList ∧
        readLine line.toList = bytes.map .byte

lemma showsCode_of_convertFunction {c : UnitContext} {style : ListingStyle}
    {f : SourceFunction} {g : ConvertedFunction} {block : List String}
    (hf : ∀ b ∈ f.body, b.IsWritten) (h : convertFunction c f = .ok (.ok g))
    (hblock : renderFunction style g = .ok block) : ShowsCode c.pool style g block := by
  obtain ⟨rfl, r, entry, exit, parts, -, -, -, hparts, hitems⟩ := exists_lines_of_convertFunction h
  obtain ⟨shown, hshown, rfl⟩ := renderFunction_eq_ok.mp hblock
  rw [← hitems, List.forall₂_map_left_iff] at hshown
  refine ⟨r, entry, exit, parts, shown, hparts, hshown, rfl, ?_⟩
  intro i ops bytes hkept
  obtain ⟨lines, hlines, hl⟩ := List.mem_flatten.mp hkept
  obtain ⟨b, hb, hgives⟩ := exists_of_mem_right hparts hlines
  refine ⟨(encode_of_gives hgives hl).2, _, rfl, ?_, readLine_codeLine style bytes (some i.text)⟩
  exact notMem_codeLine (isOnOneLine_of_gives (hf b hb) hgives _ hl)

/-! ## Units -/

section Unit

variable {o o' : Options}

/-- Where the same code is asked for, functions are converted alike. -/
lemma unitContext_of_sameCode (h : o.SameCode o') (x : DataIndex)
    (functions : List SourceFunction) :
    convertFunction (unitContext o x functions) = convertFunction (unitContext o' x functions) := by
  funext f
  have hpool : (unitContext o x functions).pool = (unitContext o' x functions).pool := by
    unfold unitContext
    rw [h.poolName]
  refine convertFunction_congr ?_ (congrArg Pool.name hpool) (congrArg rebaseOperands hpool) ?_
    h.prototypes
  · unfold unitContext
    rw [h.allowedCalls, h.stubPackage]
  · unfold unitContext Options.symbol
    rw [h.symbolPrefix]

/-- A unit is converted alike where the same code is asked for, but for its listing. -/
lemma convert_eq_of_sameCode (h : o.SameCode o') {text : String} {u : ConvertedUnit}
    (hu : convert o text = .ok u) :
    ∃ listing, convert o' text = .ok { u with text := listing } := by
  obtain ⟨functions, x, results, hread, hwritable, hjobs, hresults, hdivide, hpool, hlisting⟩ :=
    convert_eq_ok_iff.mp hu
  obtain ⟨listing, hlisting'⟩ := exists_renderUnit hlisting o'.style
  refine ⟨listing, convert_eq_ok_iff.mpr ⟨functions, x, results, hread, hwritable, ?_, ?_, ?_, ?_,
    hlisting'⟩⟩
  · rwa [← h.jobs]
  · rwa [todo, ← h.poolName, ← unitContext_of_sameCode h]
  · rwa [outcomes, todo, ← h.poolName]
  · rwa [unitContext, ← h.poolName]

end Unit

/-- Where the same code is asked for, a unit is converted or not, whatever else is asked for. It has
the same functions and the same pool then, and its listing reads the same. In its listing the line
of each encoded instruction reads as the bytes that the instruction was encoded to. -/
theorem convert_of_sameCode {o o' : Options} (h : o.SameCode o') (text : String) :
    ((∃ u, convert o text = .ok u) ↔ ∃ u, convert o' text = .ok u) ∧
    ∀ u, convert o text = .ok u →
      (∀ u', convert o' text = .ok u' → u.functions = u'.functions ∧ u.pool = u'.pool ∧
        readListing u.text.toList = readListing u'.text.toList) ∧
      ∃ front blocks, u.text = joinLines (front ++ blocks.flatten) ∧
        List.Forall₂ (ShowsCode u.pool o.style) u.functions blocks := by
  refine ⟨⟨?_, ?_⟩, ?_⟩
  · rintro ⟨u, hu⟩
    obtain ⟨listing, hlisting⟩ := convert_eq_of_sameCode h hu
    exact ⟨_, hlisting⟩
  · rintro ⟨u, hu⟩
    obtain ⟨listing, hlisting⟩ := convert_eq_of_sameCode h.symm hu
    exact ⟨_, hlisting⟩
  intro u hu
  obtain ⟨functions, x, hread, hpool, -, hfs, hrender⟩ := exists_context_of_convert hu
  obtain ⟨records, hrecords, hextract, -⟩ := readFunctions_eq_ok.mp hread
  have hconvert : ∀ g ∈ u.functions, (∀ b ∈ g.source.body, b.IsWritten) ∧
      convertFunction (unitContext o x functions) g.source = .ok (.ok g) := by
    intro g hg
    obtain ⟨f, -, -, hsource, hg⟩ := exists_of_mem_right hfs hg
    exact ⟨(extractFunctions_isWritten hrecords hextract hsource).2, hg⟩
  have hitems : ∀ g ∈ u.functions, ∀ item ∈ g.items, item.IsOnOneLine := fun g hg =>
    isOnOneLine_of_convertFunction (hconvert g hg).1 (hconvert g hg).2
  constructor
  · intro u' hu'
    obtain ⟨listing, hlisting⟩ := convert_eq_of_sameCode h hu
    obtain rfl := Except.ok.inj (hlisting.symm.trans hu')
    obtain ⟨-, -, -, -, -, -, hrender'⟩ := exists_context_of_convert hu'
    obtain ⟨poolLines, hpoolLines, hreading⟩ := readListing_renderUnit hitems hrender
    obtain ⟨poolLines', hpoolLines', hreading'⟩ := readListing_renderUnit hitems hrender'
    obtain rfl := Except.ok.inj (hpoolLines.symm.trans hpoolLines')
    exact ⟨rfl, rfl, hreading.trans hreading'.symm⟩
  · obtain ⟨front, blocks, hblocks, htext⟩ := renderUnit_eq_ok hrender
    refine ⟨front, blocks, htext, ?_⟩
    refine ((List.forall₂_and_left _ _).mpr ⟨hconvert, hblocks⟩).imp ?_
    rintro g block ⟨⟨hwritten, hg⟩, hblock⟩
    rw [hpool]
    exact showsCode_of_convertFunction hwritten hg hblock

/-- A unit whose listing is written in two styles. The second one has no comments, wide literals
and the directives of the source. -/
theorem convert_of_sameCode_of_styles :
    let text := String.join [
      "f: push rbp\n", "mov rbp, rsp\n", ".p2align 4\n", "imul rax, rdi, 100\n",
      "vmovups ymm0, ymmword ptr [rsi]\n", "leave\n", "ret\n"]
    let o' : Options := {
      stripComments := true, compact := true, keepDirectives := true, jobs := some 4,
      file := some "f.s" }
    ∃ u u', convert {} text = .ok u ∧ convert o' text = .ok u' ∧ u.text ≠ u'.text ∧
      u.functions = u'.functions ∧ u.pool = u'.pool ∧
      readListing u.text.toList = readListing u'.text.toList ∧
      ∃ front blocks, u.text = joinLines (front ++ blocks.flatten) ∧
        List.Forall₂ (ShowsCode u.pool {}) u.functions blocks := by
  intro text o'
  obtain ⟨u, hu, hother⟩ : ∃ u, convert {} text = .ok u ∧
      (convert o' text).toOption.any (fun u' => decide (u.text ≠ u'.text)) = true :=
    exists_ok_of_any (by decide +kernel)
  obtain ⟨u', hu', hne⟩ := exists_ok_of_any hother
  obtain ⟨hsame, hcode⟩ :=
    (@convert_of_sameCode {} o' ⟨rfl, rfl, rfl, rfl, rfl, rfl⟩ text).2 u hu
  obtain ⟨hfunctions, hpool, hreading⟩ := hsame u' hu'
  exact ⟨u, u', hu, hu', hne, hfunctions, hpool, hreading, hcode⟩

end AsmBridge
