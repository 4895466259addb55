import AsmBridge.Proofs.Conversion.Append
import AsmBridge.Proofs.Data.Elsewhere
import AsmBridge.Proofs.Source.Quotes

/-!
# Comments and blank lines

A unit with other comments and blank lines is read as the same records elsewhere, and what is made
of records does not depend on where they stand, but for the lines in diagnostics. So a unit that is
converted is converted with all comments and blank lines to the same text and the same constant pool
(`convert_of_isRecommented`).
-/

namespace AsmBridge

/-- Functions that are read of records elsewhere. -/
lemma exists_extractFunctions {records records' : List Record} {fs : List SourceFunction}
    (hfs : extractFunctions records = .ok fs)
    (heq : records'.map (·.unplaced) = records.map (·.unplaced)) :
    ∃ fs', extractFunctions records' = .ok fs' ∧
      List.Forall₂ (fun f f' => f'.unplaced = f.unplaced) fs fs' := by
  obtain ⟨es, hes, hread⟩ := extractFunctions_eq_ok_iff.mp hfs
  obtain ⟨es', hes', hmoved⟩ := hes.exists_of_unplaced heq
  have hstep : ∀ (f : SourceFunction) (e e' : Extent), IsReadFrom e.label e.records f →
      e.IsMoved e' → ∃ f' : SourceFunction, f'.unplaced = f.unplaced ∧
        IsReadFrom e'.label e'.records f' :=
    fun f e e' hf he => (hf.exists_of_isMoved he).imp fun f' hf' => hf'.symm
  obtain ⟨fs', hunplaced, hfs'⟩ := exists_forall₂_of_forall₂ hstep hread hmoved
  exact ⟨fs', hes'.extractFunctions_eq_ok_iff.mpr hfs', hunplaced⟩

/-! ## The pool of a unit -/

section Requests

variable {x y : DataIndex} {p q : Pool}

/-- The pool with the data of addresses, which are all there, is the same for records elsewhere. -/
lemma requireAll_of_isMoved (hx : x.IsMoved y) (f f' : SourceFunction) (hp : p.IsMoved q)
    {ps ps' : List (Instruction × Address)} (hps : List.Forall₂ (fun a a' => a'.2 = a.2) ps ps')
    (hfound : ∀ a ∈ ps, a.2.ripRelative = true → ∃ b, x.lookup a.2.symbol = .ok b) :
    (requireAll x f p ps).2 = none ∧ (requireAll y f' q ps').2 = none ∧
      (requireAll x f p ps).1.IsMoved (requireAll y f' q ps').1 := by
  induction hps generalizing p q with
  | nil => exact ⟨rfl, rfl, hp⟩
  | @cons a a' ps ps' ha _ ih =>
    obtain ⟨hfirst, hrest⟩ := List.forall_mem_cons.mp hfound
    cases hrip : a.2.ripRelative with
    | false =>
      have hsame : ∀ (x : DataIndex) (f : SourceFunction) (p : Pool) (a : Instruction × Address),
          a.2.ripRelative = false → requireAddress x f p a = .ok p :=
        fun x f p a h => if_pos (by rw [h]; rfl)
      rw [requireAll, requireAll, hsame x f p a hrip, hsame y f' q a' (ha ▸ hrip)]
      exact ih hp hrest
    | true =>
      obtain ⟨b, hb⟩ := hfirst hrip
      obtain ⟨b', hb', hmoved⟩ := hx.exists_lookup hb
      have hused : ∀ (x : DataIndex) (f : SourceFunction) (p : Pool) (a : Instruction × Address) b,
          a.2.ripRelative = true → x.lookup a.2.symbol = .ok b →
          requireAddress x f p a = .ok (p.withUse b a.2.accessBytes) := by
        intro x f p a b hrip hb
        unfold requireAddress DataIndex.lookupFor
        dsimp only
        rw [hrip, hb]
        rfl
      rw [requireAll, requireAll, hused x f p a b hrip hb,
        hused y f' q a' b' (ha ▸ hrip) (ha ▸ hb'), ha]
      exact ih (hp.withUse hmoved _) hrest

lemma addresses_of_unplaced {f f' : SourceFunction} (h : f'.unplaced = f.unplaced) :
    List.Forall₂ (fun a a' => a'.2 = a.2) f.addresses f'.addresses := by
  have haddresses := congrArg SourceFunction.addresses h
  rw [f.unplaced_addresses, f'.unplaced_addresses] at haddresses
  exact (map_eq_map_iff_forall₂.mp haddresses.symm).imp fun a a' h => (Prod.mk.inj h).2.symm

/-- The pool of functions whose data are all there is the same for records elsewhere. -/
lemma requireConstants_of_isMoved (hx : x.IsMoved y) {fs fs' : List SourceFunction}
    (hfs : List.Forall₂ (fun f f' => f'.unplaced = f.unplaced) fs fs')
    (hfound : ∀ f ∈ fs, ∀ a ∈ f.addresses, a.2.ripRelative = true →
      ∃ b, x.lookup a.2.symbol = .ok b) (name : String) :
    (requireConstants x name fs).2 = [] ∧ (requireConstants y name fs').2 = [] ∧
      (requireConstants x name fs).1.IsMoved (requireConstants y name fs').1 := by
  have hrun : ∀ acc acc' : Pool × List (String × Diagnostic), acc.2 = [] → acc'.2 = [] →
      acc.1.IsMoved acc'.1 → (fs.foldl (requireFunction x) acc).2 = [] ∧
        (fs'.foldl (requireFunction y) acc').2 = [] ∧
        (fs.foldl (requireFunction x) acc).1.IsMoved (fs'.foldl (requireFunction y) acc').1 := by
    induction hfs with
    | nil => exact fun acc acc' h h' hp => ⟨h, h', hp⟩
    | @cons f f' fs fs' hf _ ih =>
      obtain ⟨hfirst, hrest⟩ := List.forall_mem_cons.mp hfound
      intro acc acc' h h' hp
      obtain ⟨hnone, hnone', hp⟩ :=
        requireAll_of_isMoved hx f f' hp (addresses_of_unplaced hf) hfirst
      refine ih hrest _ _ ?_ ?_ hp
      · rw [requireFunction, hnone, h]
        rfl
      · rw [requireFunction, hnone', h']
        rfl
  rw [requireConstants_eq, requireConstants_eq]
  exact hrun _ _ rfl rfl ⟨rfl, .nil, rfl⟩

/-- The conversion of a function depends on the pool by its name and the offsets of its symbols
only. -/
lemma convertFunction_of_isMoved {c c' : UnitContext} (hoptions : c'.options = c.options)
    (hhelpers : c'.helpers = c.helpers) (hpool : c.pool.IsMoved c'.pool) :
    convertFunction c' = convertFunction c := by
  have hrebase : rebaseOperands c'.pool = rebaseOperands c.pool := by
    unfold rebaseOperands
    rw [hpool.rebase_eq]
  funext f
  exact convertFunction_congr hhelpers hpool.name hrebase (by rw [hoptions]) (by rw [hoptions])

lemma renderPool_of_isMoved (h : p.IsMoved q) : renderPool q = renderPool p := by
  have hempty : q.slots.isEmpty = p.slots.isEmpty := by
    rw [Bool.eq_iff_iff, List.isEmpty_iff, List.isEmpty_iff, ← List.length_eq_zero_iff,
      ← List.length_eq_zero_iff, h.slots.length_eq]
  rw [renderPool, renderPool, hempty, h.contents_eq, h.name]

lemma renderUnit_of_isMoved (h : p.IsMoved q) {style : ListingStyle} {gs gs' : List ConvertedFunction}
    (hgs : List.Forall₂ (ConvertedFunction.IsAlike style) gs gs') :
    renderUnit style q gs' = renderUnit style p gs :=
  renderUnit_congr (renderPool_of_isMoved h) (hgs.imp fun _ _ hg => hg.block)

end Requests

/-! ## Units -/

section Unit

variable {o : Options} {text text' : String} {u : ConvertedUnit}

/-- A unit that is converted is converted alike if it is read as the same records elsewhere. -/
lemma exists_convert_of_unplaced {records records' : List Record}
    (hread : Source.readUnit text = .ok records) (hread' : Source.readUnit text' = .ok records')
    (heq : records'.map (·.unplaced) = records.map (·.unplaced)) (hu : convert o text = .ok u) :
    ∃ u', convert o text' = .ok u' ∧ u'.text = u.text ∧ u.pool.IsMoved u'.pool ∧
      List.Forall₂ (ConvertedFunction.IsAlike o.style) u.functions u'.functions := by
  obtain ⟨functions, x, hfunctions, -, hlookup, -⟩ := convert_eq_ok hu
  obtain ⟨_, hrecords, hextract, hindex⟩ := readFunctions_eq_ok.mp hfunctions
  obtain rfl := Except.ok.inj (hread.symm.trans hrecords)
  obtain ⟨functions', hextract', hmoved⟩ := exists_extractFunctions hextract heq
  obtain ⟨y, hindex', hy⟩ := DataIndex.exists_ofRecords heq hindex
  have hfunctions' : readFunctions text' = .ok (functions', y) :=
    readFunctions_eq_ok.mpr ⟨_, hread', hextract', hindex'⟩
  have hdata : ∀ f ∈ functions, ∀ a ∈ f.addresses, a.2.ripRelative = true →
      ∃ b, x.lookup a.2.symbol = .ok b := by
    intro f hf a ha hrip
    obtain ⟨hi, ha⟩ := SourceFunction.mem_addresses.mp ha
    exact hlookup f hf _ hi _ ha hrip
  obtain ⟨hfound, hfound', hpool⟩ := requireConstants_of_isMoved hy hmoved hdata o.poolName
  obtain ⟨hwritable, hjobs, ⟨results, hresults, houtcomes⟩, hupool, hlisting⟩ :=
    (convert_eq_ok_iff_of_found hfunctions hfound).mp hu
  have hcontext : convertFunction (unitContext o y functions') =
      convertFunction (unitContext o x functions) :=
    convertFunction_of_isMoved rfl rfl hpool.fix
  have hstep : ∀ (f' f : SourceFunction) (r : Except (List Diagnostic) ConvertedFunction),
      f'.unplaced = f.unplaced → convertFunction (unitContext o x functions) f = .ok r →
      ∃ r', convertFunction (unitContext o x functions) f' = .ok r' ∧ OutcomeAlike o.style r r' :=
    fun f' f r hf hr => (exists_outcomeAlike_of_unplaced hf hr).imp fun r' h => h.symm
  obtain ⟨results', hresults', halike⟩ :=
    exists_forall₂_of_forall₂ hstep hmoved.flip (mapM_eq_ok.mp hresults)
  have houtcomes' := outcomeAlike_ownOutcomes (hmoved.imp fun f f' h => .moved h) halike.flip
  rw [houtcomes] at houtcomes'
  obtain ⟨gs', hgs', hconversions⟩ := exists_of_outcomeAlike houtcomes'
  have hupool' : u.pool.IsMoved (unitContext o y functions').pool := by
    rw [hupool]
    exact hpool.fix
  refine ⟨⟨gs', _, u.text⟩, (convert_eq_ok_iff_of_found hfunctions' hfound').mpr
    ⟨?_, hjobs, ⟨results', ?_, hgs'⟩, rfl, ?_⟩, rfl, hupool', hconversions⟩
  · exact (congrArg (fun n : ℕ => Text.isWritable n) hupool'.size_eq).trans hwritable
  · rw [hcontext]
    exact mapM_eq_ok.mpr hresults'
  · rw [renderUnit_of_isMoved hupool' hconversions]
    exact hlisting

/-- A unit that is converted is converted with all comments and blank lines: with lines of blanks
and comments between its lines, and with comments behind lines in which all strings are closed. The
text is the same, and so are the pool, with its symbols, their alignments, their offsets and the
data, and what is told of the functions. -/
theorem convert_of_isRecommented
    (htext : Source.IsRecommented (text.toList.splitOn '\n') (text'.toList.splitOn '\n'))
    (hu : convert o text = .ok u) :
    ∃ u', convert o text' = .ok u' ∧ u'.text = u.text ∧
      u'.pool.placement = u.pool.placement ∧
      u'.pool.slots.map (·.align) = u.pool.slots.map (·.align) ∧ u'.pool.data = u.pool.data ∧
      u'.functions.map (·.info) = u.functions.map (·.info) ∧
      u'.functions.map (·.signature) = u.functions.map (·.signature) := by
  obtain ⟨functions, x, hfunctions, -⟩ := convert_eq_ok hu
  obtain ⟨records, hread, -⟩ := readFunctions_eq_ok.mp hfunctions
  obtain ⟨records', hread', heq⟩ := Source.exists_readUnit_of_isRecommented htext hread
  obtain ⟨u', hu', hsame, hpool, hgs⟩ := exists_convert_of_unplaced hread hread' heq hu
  exact ⟨u', hu', hsame, hpool.placement_eq, hpool.alignments_eq, hpool.data_eq,
    (map_eq_map_iff_forall₂.mpr (hgs.imp fun _ _ h => h.info.symm)).symm,
    (map_eq_map_iff_forall₂.mpr (hgs.imp fun _ _ h => h.signature.symm)).symm⟩

/-- A unit with a number sign and an escaped quote in a string, and the same unit with comments in
which quotes are not balanced. -/
theorem convert_of_isRecommented_of_string :
    let text := String.join [
      ".section .rodata\n", "s: .ascii \"a#\\\"\"\n", ".text\n", "f: push rbp\n",
      "mov rbp, rsp\n", "lea rax, [rip + s]\n", "leave\n", "ret"]
    let text' := String.join [
      "# data\n", ".section .rodata\n", "s: .ascii \"a#\\\"\" # \"\n", " \n", ".text\n",
      "f: push rbp\n", "mov rbp, rsp\n", "lea rax, [rip + s]# the \"s\n", "leave\n", "ret"]
    ∃ u u', convert {} text = .ok u ∧ convert {} text' = .ok u' ∧ u'.text = u.text ∧
      u'.pool.placement = [("s", some 0)] ∧ u'.functions.map (·.info.symbol) = ["_f"] := by
  intro text text'
  obtain ⟨u, hu, hplacement, hsymbols⟩ : ∃ u, convert {} text = .ok u ∧
      u.pool.placement = [("s", some 0)] ∧ u.functions.map (·.info.symbol) = ["_f"] :=
    exists_ok_of_any (by decide +kernel)
  have hlines : text.toList.splitOn '\n' = [".section .rodata".toList,
      "s: .ascii ".toList ++ '"' :: ("a#\\\"".toList ++ '"' :: []), ".text".toList,
      "f: push rbp".toList, "mov rbp, rsp".toList, "lea rax, [rip + s]".toList, "leave".toList,
      "ret".toList] := by decide +kernel
  have hlines' : text'.toList.splitOn '\n' = [[] ++ '#' :: " data".toList, ".section .rodata".toList,
      ("s: .ascii ".toList ++ '"' :: ("a#\\\"".toList ++ '"' :: [])) ++ ([' '] ++ '#' :: " \"".toList),
      [' '], ".text".toList, "f: push rbp".toList, "mov rbp, rsp".toList,
      ("lea rax, [rip + s]".toList ++ []) ++ ([] ++ '#' :: " the \"s".toList), "leave".toList,
      "ret".toList] := by decide +kernel
  have hstring : Source.IsClosed
      ("s: .ascii ".toList ++ '"' :: ("a#\\\"".toList ++ '"' :: [])) :=
    .plain_append (by decide) (.string (.plain (by decide) (by decide)
      (.plain (by decide) (by decide) (.escape '"' .nil))) .nil)
  have hplain : Source.IsClosed ("lea rax, [rip + s]".toList ++ []) :=
    .plain_append (by decide) .nil
  have htext : Source.IsRecommented (text.toList.splitOn '\n') (text'.toList.splitOn '\n') := by
    rw [hlines, hlines']
    exact .insert (.comment (by decide) _) (.keep _ (.append hstring (by decide) _
      (.insert (.blank (by decide)) (.keep _ (.keep _ (.keep _
        (.append hplain (by decide) _ (.keep _ (.keep _ .nil)))))))))
  obtain ⟨u', hu', hsame, hplacement', -, -, hinfo, -⟩ := convert_of_isRecommented htext hu
  refine ⟨u, u', hu, hu', hsame, hplacement'.trans hplacement, ?_⟩
  have hsymbols' := congrArg (List.map (·.symbol)) hinfo
  rw [List.map_map, List.map_map] at hsymbols'
  exact hsymbols'.trans hsymbols

end Unit

end AsmBridge
