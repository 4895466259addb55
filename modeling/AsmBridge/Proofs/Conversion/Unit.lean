import AsmBridge.Proofs.Conversion.Constants
import AsmBridge.Proofs.Conversion.Lines

/-!
# The conversions of a unit

A unit that is converted has the conversion of every one of its functions, all of them with one
pool, which holds the data of the unit (`convert_eq_ok`). Labels name functions: of functions that
share a label the conversion of the last one stands for all.
-/

namespace AsmBridge

/-- Outcomes without a defect, each with its conversion. -/
lemma divide_eq {fs : List SourceFunction}
    {out : SourceFunction → Except (List Diagnostic) ConvertedFunction}
    {R : SourceFunction → ConvertedFunction → Prop} (h : ∀ f ∈ fs, ∃ g, out f = .ok g ∧ R f g) :
    List.Forall₂ R fs (divide (fs.map out)).2 := by
  induction fs with
  | nil => exact .nil
  | cons f rest ih =>
    obtain ⟨g, hg, hR⟩ := h f List.mem_cons_self
    rw [List.map_cons, divide, hg]
    exact .cons hR (ih fun f' hf' => h f' (List.mem_cons_of_mem _ hf'))

/-- No outcome has a defect if none is reported. -/
lemma eq_nil_of_divide {outs : List (Except (List Diagnostic) ConvertedFunction)}
    (h : (divide outs).1 = []) {ds : List Diagnostic} (hds : .error ds ∈ outs) : ds = [] := by
  induction outs with
  | nil => cases hds
  | cons out rest ih =>
    rcases List.mem_cons.mp hds with rfl | hds
    · rw [divide] at h
      exact (List.append_eq_nil_iff.mp h).1
    · refine ih ?_ hds
      cases out with
      | ok g => exact h
      | error more => exact (List.append_eq_nil_iff.mp h).2

section Outcomes

variable {c : UnitContext} {failed : List (String × Diagnostic)} {todo : List SourceFunction}
  {results : List (Except (List Diagnostic) ConvertedFunction)}

/-- What is found under a label is the conversion of a function with this label. -/
lemma exists_of_lookup (hresults : todo.mapM (convertFunction c) = .ok results) {l : String}
    {result : Except (List Diagnostic) ConvertedFunction}
    (h : ((todo.map (·.label)).zip results).reverse.lookup l = some result) :
    ∃ f ∈ todo, f.label = l ∧ convertFunction c f = .ok result := by
  obtain ⟨front, back, heq, -⟩ := List.lookup_eq_some_iff.mp h
  have hmem : (l, result) ∈ (todo.map (·.label)).zip results := by
    rw [← List.mem_reverse, heq]
    exact List.mem_append_right _ List.mem_cons_self
  rw [List.zip_map_left] at hmem
  obtain ⟨⟨f, result'⟩, hf, hpair⟩ := List.mem_map.mp hmem
  obtain ⟨hlabel, hresult⟩ := Prod.mk.inj hpair
  obtain rfl : result' = result := hresult
  exact ⟨f, (List.of_mem_zip hf).1, hlabel, List.forall₂_zip (mapM_eq_ok.mp hresults) hf⟩

/-- The label of a function that is converted has a conversion. -/
lemma lookup_ne_none (hresults : todo.mapM (convertFunction c) = .ok results)
    {f : SourceFunction} (hf : f ∈ todo) :
    ((todo.map (·.label)).zip results).reverse.lookup f.label ≠ none := by
  intro hnone
  obtain ⟨n, hn, rfl⟩ := List.getElem_of_mem hf
  have hlen := (mapM_eq_ok.mp hresults).length_eq
  have hn' : n < results.length := hlen ▸ hn
  have hmem : (todo[n].label, results[n]) ∈ ((todo.map (·.label)).zip results).reverse := by
    rw [List.mem_reverse, List.zip_map_left]
    refine List.mem_map.mpr ⟨(todo[n], results[n]), ?_, rfl⟩
    have hzip : n < (todo.zip results).length := by
      rw [List.length_zip]
      omega
    rw [← List.getElem_zip (h := hzip)]
    exact List.getElem_mem hzip
  have hne := List.lookup_eq_none_iff.mp hnone _ hmem
  simp at hne

/-- The outcome of a function is a conversion, if no defect is reported. -/
lemma exists_outcome {functions : List SourceFunction}
    (htodo : todo = functions.filter fun f => (failed.lookup f.label).isNone)
    (hresults : todo.mapM (convertFunction c) = .ok results)
    (hds : (divide (functions.map (outcome failed ((todo.map (·.label)).zip results)))).1 = [])
    {f : SourceFunction} (hf : f ∈ functions) :
    failed.lookup f.label = none ∧
      ∃ g, outcome failed ((todo.map (·.label)).zip results) f = .ok g ∧
        g.source.label = f.label ∧ g.source ∈ functions ∧
        convertFunction c g.source = .ok (.ok g) := by
  have hout := List.mem_map_of_mem (f := outcome failed ((todo.map (·.label)).zip results)) hf
  have hfailed : failed.lookup f.label = none := by
    cases hd : failed.lookup f.label with
    | none => rfl
    | some d =>
      simp only [outcome, hd] at hout
      cases eq_nil_of_divide hds hout
  refine ⟨hfailed, ?_⟩
  have hmem : f ∈ todo := by
    rw [htodo, List.mem_filter]
    exact ⟨hf, by simp [hfailed]⟩
  cases hlookup : ((todo.map (·.label)).zip results).reverse.lookup f.label with
  | none => exact absurd hlookup (lookup_ne_none hresults hmem)
  | some result =>
    obtain ⟨f', hf', hlabel, hconvert⟩ := exists_of_lookup hresults hlookup
    simp only [outcome, hfailed, hlookup] at hout ⊢
    cases result with
    | error ds => exact absurd (eq_nil_of_divide hds hout) (convertFunction_error_ne_nil hconvert)
    | ok g =>
      obtain ⟨hsource, -⟩ := exists_lines_of_convertFunction hconvert
      refine ⟨g, rfl, by rw [hsource, hlabel], ?_, by rw [hsource]; exact hconvert⟩
      rw [hsource]
      exact (List.mem_filter.mp (htodo ▸ hf')).1

end Outcomes

/-- Pools and functions that are shown alike have one listing. -/
lemma renderUnit_congr {style : ListingStyle} {p q : Pool} {gs gs' : List ConvertedFunction}
    (hpool : renderPool q = renderPool p)
    (hgs : List.Forall₂ (fun g g' => renderFunction style g' = renderFunction style g) gs gs') :
    renderUnit style q gs' = renderUnit style p gs := by
  have hblocks : gs'.mapM (renderFunction style) = gs.mapM (renderFunction style) := by
    induction hgs with
    | nil => rfl
    | cons hg _ ih => rw [List.mapM_cons, List.mapM_cons, hg, ih]
  rw [renderUnit, renderUnit, hpool, hblocks]

/-- The functions and the data of a unit are those of its records. -/
lemma readFunctions_eq_ok {text : String} {functions : List SourceFunction} {x : DataIndex} :
    readFunctions text = .ok (functions, x) ↔
      ∃ records, Source.readUnit text = .ok records ∧ extractFunctions records = .ok functions ∧
        DataIndex.ofRecords records = .ok x := by
  constructor
  · intro h
    obtain ⟨records, hread, h⟩ := bind_eq_ok.mp h
    obtain ⟨functions', hfunctions, h⟩ := bind_eq_ok.mp h
    obtain ⟨index, hindex, h⟩ := bind_eq_ok.mp h
    obtain ⟨rfl, rfl⟩ := Prod.mk.inj (pure_eq_ok.mp h)
    exact ⟨records, hread, hfunctions, hindex⟩
  · rintro ⟨records, hread, hfunctions, hindex⟩
    exact bind_eq_ok.mpr ⟨records, hread, bind_eq_ok.mpr ⟨functions, hfunctions,
      bind_eq_ok.mpr ⟨x, hindex, rfl⟩⟩⟩

/-- The data of a unit are those of its records. -/
lemma exists_records_of_readFunctions {text : String} {functions : List SourceFunction}
    {x : DataIndex} (h : readFunctions text = .ok (functions, x)) :
    ∃ records, Source.readUnit text = .ok records ∧ DataIndex.ofRecords records = .ok x := by
  obtain ⟨records, hread, -, hindex⟩ := readFunctions_eq_ok.mp h
  exact ⟨records, hread, hindex⟩

/-- In the data of a unit every blob goes by one of its labels. -/
lemma readFunctions_isNamed {text : String} {functions : List SourceFunction} {x : DataIndex}
    (h : readFunctions text = .ok (functions, x)) : x.IsNamed := by
  obtain ⟨records, -, hindex⟩ := exists_records_of_readFunctions h
  exact DataIndex.ofRecords_isNamed hindex

/-- What the functions of a unit are converted with. -/
def unitContext (o : Options) (x : DataIndex) (functions : List SourceFunction) : UnitContext :=
  { options := o, helpers := Helpers.ofList o.allowedCalls o.stubPackage,
    pool := (requireConstants x o.poolName functions).1.fix }

/-- The functions of a unit that do not lack data. -/
def todo (o : Options) (x : DataIndex) (functions : List SourceFunction) : List SourceFunction :=
  functions.filter fun f => ((requireConstants x o.poolName functions).2.lookup f.label).isNone

/-- The outcomes of the functions of a unit, given the results of those that do not lack data. -/
def outcomes (o : Options) (x : DataIndex) (functions : List SourceFunction)
    (results : List (Except (List Diagnostic) ConvertedFunction)) :
    List (Except (List Diagnostic) ConvertedFunction) :=
  functions.map (outcome (requireConstants x o.poolName functions).2
    (((todo o x functions).map (·.label)).zip results))

/-- The conversion of a unit that is read: the functions that do not lack data are converted, and
either there are defects among the outcomes, or the conversions are shown behind the pool. -/
def convertRead (o : Options) (x : DataIndex) (functions : List SourceFunction) :
    Except Failure ConvertedUnit :=
  let c := unitContext o x functions
  if !Text.isWritable c.pool.size then .error (.fault (.stop .numberUnwritable))
  else if o.jobs.isNone then .error (.fault (.stop .jobsUnknown))
  else do
    let results ← ((todo o x functions).mapM (convertFunction c)).mapError Failure.fault
    let (ds, gs) := divide (outcomes o x functions results)
    if !ds.isEmpty then .error (.defects o.file ds)
    else do
      let text ← (renderUnit o.style c.pool gs).mapError fun s => Failure.fault (.stop s)
      return { functions := gs, pool := c.pool, text := text }

lemma convert_eq (o : Options) (text : String) :
    convert o text = (readFunctions text).mapError (earlyFailure o.file) >>=
      fun r => convertRead o r.2 r.1 := rfl

lemma convert_of_readFunctions {o : Options} {text : String} {functions : List SourceFunction}
    {x : DataIndex} (h : readFunctions text = .ok (functions, x)) :
    convert o text = convertRead o x functions := by
  rw [convert_eq, mapError_eq_ok.mpr h]
  exact pure_bind _ _

/-- When a unit is converted: all its functions that do not lack data have a result, there is no
defect among the outcomes, and the conversions can be shown behind the pool. -/
lemma convert_eq_ok_iff {o : Options} {text : String} {u : ConvertedUnit} :
    convert o text = .ok u ↔
      ∃ functions x results, readFunctions text = .ok (functions, x) ∧
        Text.isWritable u.pool.size = true ∧ o.jobs.isSome = true ∧
        (todo o x functions).mapM (convertFunction (unitContext o x functions)) = .ok results ∧
        divide (outcomes o x functions results) = ([], u.functions) ∧
        (unitContext o x functions).pool = u.pool ∧
        renderUnit o.style u.pool u.functions = .ok u.text := by
  rw [convert_eq, bind_eq_ok]
  constructor
  · rintro ⟨⟨functions, x⟩, hread, h⟩
    dsimp only [convertRead] at h
    split_ifs at h with hwritable hjobs
    obtain ⟨results, hresults, h⟩ := bind_eq_ok.mp h
    split_ifs at h with hds
    obtain ⟨listing, hlisting, h⟩ := bind_eq_ok.mp h
    obtain rfl := pure_eq_ok.mp h
    refine ⟨functions, x, results, mapError_eq_ok.mp hread, by simpa using hwritable,
      by simpa [Option.isSome_iff_ne_none] using hjobs, mapError_eq_ok.mp hresults, ?_, rfl,
      mapError_eq_ok.mp hlisting⟩
    exact Prod.ext (by simpa using hds) rfl
  · obtain ⟨gs, pool', listing⟩ := u
    rintro ⟨functions, x, results, hread, hwritable, hjobs, hresults, hdivide, rfl, hlisting⟩
    refine ⟨(functions, x), mapError_eq_ok.mpr hread, ?_⟩
    dsimp only [convertRead]
    rw [if_neg (by simpa using hwritable),
      if_neg (by simpa [Option.isSome_iff_ne_none] using hjobs)]
    refine bind_eq_ok.mpr ⟨results, mapError_eq_ok.mpr hresults, ?_⟩
    rw [hdivide]
    exact bind_eq_ok.mpr ⟨listing, mapError_eq_ok.mpr hlisting, rfl⟩

/-- A unit that is converted has data for all its functions, and for each of them the conversion of
a function with the same label; its text shows them behind the pool. -/
lemma exists_context_of_convert {o : Options} {text : String} {u : ConvertedUnit}
    (h : convert o text = .ok u) :
    ∃ functions x, readFunctions text = .ok (functions, x) ∧
      u.pool = (unitContext o x functions).pool ∧
      (∀ f ∈ functions, (requireConstants x o.poolName functions).2.lookup f.label = none) ∧
      List.Forall₂ (fun f g => g.source.label = f.label ∧ g.source ∈ functions ∧
        convertFunction (unitContext o x functions) g.source = .ok (.ok g)) functions u.functions ∧
      renderUnit o.style u.pool u.functions = .ok u.text := by
  obtain ⟨functions, x, results, hread, -, -, hresults, hdivide, hpool, hlisting⟩ :=
    convert_eq_ok_iff.mp h
  have houtcome := fun {f} (hf : f ∈ functions) =>
    exists_outcome rfl hresults (congrArg Prod.fst hdivide) hf
  have hfs : List.Forall₂ _ functions (divide (outcomes o x functions results)).2 :=
    divide_eq fun f hf => (houtcome hf).2
  rw [hdivide] at hfs
  exact ⟨functions, x, hread, hpool.symm, fun f hf => (houtcome hf).1, hfs, hlisting⟩

/-- A unit that is converted has, for each of its functions, the conversion of a function with the
same label, and a pool that holds data of the unit, those of all addresses relative to the
instruction pointer among them. -/
lemma convert_eq_ok {o : Options} {text : String} {u : ConvertedUnit}
    (h : convert o text = .ok u) :
    ∃ functions x, readFunctions text = .ok (functions, x) ∧ u.pool.IsFilledFrom x ∧
      (∀ f ∈ functions, ∀ i ∈ f.instructions, ∀ a ∈ i.addresses, a.ripRelative = true →
        ∃ b, x.lookup a.symbol = .ok b) ∧
      ∃ c : UnitContext, c.pool = u.pool ∧
        List.Forall₂ (fun f g => g.source.label = f.label ∧ g.source ∈ functions ∧
          convertFunction c g.source = .ok (.ok g)) functions u.functions := by
  obtain ⟨functions, x, hread, hpool, hfailed, hfs, -⟩ := exists_context_of_convert h
  have hfilled : (requireConstants x o.poolName functions).1.IsFilledFrom x :=
    requireConstants_isFilled
  refine ⟨functions, x, hread, ?_, ?_, unitContext o x functions, hpool.symm, hfs⟩
  · rw [hpool]
    exact fun s hs => hfilled s hs
  · intro f hf i hi a ha hrip
    exact exists_lookup_of_requireConstants hf (hfailed f hf) hi ha hrip

/-- The reason for which a unit is given up, if it is one of those that are fixed. -/
def stopOf : Except Failure ConvertedUnit → Option Stop
  | .error (.fault (.stop s)) => some s
  | _ => none

lemma eq_of_stopOf {r : Except Failure ConvertedUnit} {s : Stop} (h : stopOf r = some s) :
    r = .error (.fault (.stop s)) := by
  unfold stopOf at h
  split at h
  · rw [Option.some.inj h]
  · cases h

end AsmBridge
