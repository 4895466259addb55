import AsmBridge.Proofs.Abi.StackArguments
import AsmBridge.Proofs.Abi.Stops
import AsmBridge.Proofs.Conversion.Aliases
import AsmBridge.Proofs.Data.Stops
import AsmBridge.Proofs.Function.Stops
import AsmBridge.Proofs.Source.Stops

/-!
# Units that are given up

A unit that is given up has no listing and no diagnostics. `GivesUp` lists why this happens, from
the lines that are read to the listing that is written, and nothing else gives a unit up: every
other failure is a report with a defect (`failsWith_convert`). A single function that is given up is
enough to give up the whole unit (`exists_fault_of_convertFunction`).
-/

namespace AsmBridge

/-! ## Functions -/

/-- Why a function is given up when it is converted. -/
inductive SourceFunction.StopsConversion (c : UnitContext) (x : DataIndex) (f : SourceFunction) :
    Fault → Prop
  /-- It is not told of an instruction which registers it reads and writes. -/
  | untold {i : Instruction} {e : Fault} (hi : i ∈ f.instructions) (h : i.Untold e) :
      StopsConversion c x f e
  /-- The declared result has a length that is too long to be read. -/
  | result {s : Signature} {r : Argument}
      (hs : s ∈ (c.options.prototypes.find? (c.options.symbol f)).or
        (c.options.prototypes.find? f.name))
      (hr : r ∈ s.result) (h : IsUnreadableKind r.kind) :
      StopsConversion c x f (.stop .numberUnreadable)
  /-- The frame has a size that is too long to be written. -/
  | frame {s : Signature} {reserve : ℕ} {align : ℤ}
      (hs : f.resolveSignature (c.options.symbol f) c.options.prototypes = .ok s)
      (hreserve : c.helpers.reserve f = .ok reserve) (halign : f.stackAlignment = .ok align)
      (h : (f.layout (assignArguments s) reserve align).isWritable = false) :
      StopsConversion c x f (.stop .numberUnwritable)
  /-- Data are referred to by a label that is not the first one of their blob. -/
  | alias {i : Instruction} {a : Address} {b : Blob} (hi : i ∈ f.instructions)
      (ha : a ∈ i.addresses) (hrip : a.ripRelative = true) (hb : x.lookup a.symbol = .ok b)
      (hne : a.symbol ≠ some b.symbol) : StopsConversion c x f (.stop (.slotMissing a.symbol))
  /-- The data of a directive in the body cannot be decoded. -/
  | data {d : Directive} {s : Stop} (hd : .directive d ∈ f.body)
      (hname : Directive.isDataName d.name = true) (h : d.StopsData s) :
      StopsConversion c x f (.stop s)

/-- The index has the data of a function, and the pool has a slot for each of their blobs. -/
def SourceFunction.HasData (f : SourceFunction) (x : DataIndex) (pool : Pool) : Prop :=
  ∀ i ∈ f.instructions, ∀ a ∈ i.addresses, a.ripRelative = true →
    ∃ b, x.lookup a.symbol = .ok b ∧ b.symbol ∈ pool.symbols

section Function

variable {c : UnitContext} {x : DataIndex} {f : SourceFunction} {r : Option Register}
  {i : Instruction}

/-- The operands of an instruction are moved unless one of them refers to data by a later label. -/
lemma failsWith_moveOperands (hdata : f.HasData x c.pool) (hi : i ∈ f.instructions) :
    FailsWith (f.StopsConversion c x) (moveOperands c.pool r i.operands) := by
  cases r with
  | none => exact failsWith_ok _
  | some q =>
    refine FailsWith.mapError (P := fun s => f.StopsConversion c x (.stop s)) ?_ fun s hs => hs
    refine failsWith_mapM fun o ho => ?_
    cases o with
    | mem a =>
      dsimp only
      split_ifs with hrip
      · have ha : a ∈ i.addresses := List.mem_filterMap.mpr ⟨_, ho, rfl⟩
        refine FailsWith.map ?_ _
        unfold Pool.rebase
        split
        · exact failsWith_ok _
        · rename_i hnone
          obtain ⟨b, hb, hmem⟩ := hdata i hi a ha hrip
          refine failsWith_error (.alias hi ha hrip hb fun hsymbol => ?_)
          obtain ⟨n, hn⟩ := Pool.exists_offset hmem
          rw [hsymbol, hn] at hnone
          cases hnone
      · exact failsWith_ok _
    | _ => exact failsWith_ok _

/-- Once its operands are moved, an instruction is encoded or refused, or it has an immediate that
cannot be written. -/
lemma failsWith_encodeItems (hf : f.HasReadable) (hr : ∀ q ∈ r, q ∈ poolCandidates)
    (hi : i ∈ f.instructions) {ops : List Operand}
    (hops : List.Forall₂ (Operand.Moved c.pool r) i.operands ops) :
    FailsWith (f.StopsConversion c x) (encodeItems f i ops) := by
  have hreadable : ∀ a, .mem a ∈ ops → a.IsReadable ∧ a.ripRelative = false := by
    intro a ha
    obtain ⟨o, ho, hmoved⟩ := exists_of_mem_right hops ha
    have hrip : ∀ q ∈ r, q ≠ .rip := by
      rintro q hq rfl
      obtain ⟨n, hn, -⟩ := exists_of_mem_poolCandidates _ (hr _ hq)
      cases hn
    refine ⟨?_, ripRelative_of_moved hrip hmoved a rfl⟩
    cases hmoved with
    | @datum b q _ n _ hq _ _ =>
      have hbits := (hf i hi b (List.mem_filterMap.mpr ⟨_, ho, rfl⟩)).bits
      obtain ⟨k, rfl, -⟩ := exists_of_mem_poolCandidates q (hr q hq)
      exact ⟨hbits, by simp [Register.isAddressing]⟩
    | other => exact hf i hi a (List.mem_filterMap.mpr ⟨_, ho, rfl⟩)
  unfold encodeItems
  split
  · exact failsWith_ok _
  · rename_i e he
    split_ifs with hrefusal
    · exact failsWith_ok _
    · refine failsWith_error ?_
      rcases failsWith_encode hreadable _ _ e he with h | ⟨rfl, o, ho, v, hv, rfl, hwritable⟩
      · exact absurd h hrefusal
      · obtain ⟨o', ho', hmoved⟩ := exists_of_mem_right hops ho
        cases hmoved
        exact .untold hi (.unwritable ho' ⟨v, hv, rfl, hwritable⟩)

/-- A record of a body has a result, or it gives its function up. -/
lemma failsWith_convertRecord (hf : f.HasReadable) (hdata : f.HasData x c.pool)
    (hr : ∀ q ∈ r, q ∈ poolCandidates)
    (hnone : r = none → ∀ i ∈ f.instructions, ∀ a ∈ i.addresses, a.ripRelative = false)
    (exit : List Item) {b : BodyItem} (hb : b ∈ f.body) :
    FailsWith (f.StopsConversion c x) (convertRecord c f r exit b) := by
  cases b with
  | label l => exact failsWith_ok _
  | epilogue e => exact failsWith_ok _
  | directive d =>
    rw [convertRecord]
    split_ifs with hname
    · refine FailsWith.mapError (P := fun s => f.StopsConversion c x (.stop s)) ?_ fun s hs => hs
      unfold convertData
      split
      · exact failsWith_ok _
      · rename_i s hs
        exact failsWith_error (.data hb hname (d.failsWith_bytes _ hs s rfl))
      · exact failsWith_ok _
    · exact failsWith_ok _
  | instruction i =>
    have hi : i ∈ f.instructions := List.mem_filterMap.mpr ⟨_, hb, rfl⟩
    rw [convertRecord, convertInstruction]
    split
    · exact failsWith_ok _
    · split_ifs
      · refine FailsWith.mapError (P := fun _ => False) ?_ fun s hs => hs.elim
        unfold convertCall
        split
        · exact failsWith_ok _
        · refine FailsWith.bind ?_ fun anchor _ => failsWith_ok _
          cases r with
          | none => exact failsWith_ok _
          | some q =>
            rw [Option.mapM_some, loadPool_eq_ok (hr q rfl)]
            exact failsWith_ok _
      · exact failsWith_ok _
      · rw [convertCode_eq]
        refine (failsWith_moveOperands hdata hi).bind fun ops hops => ?_
        exact failsWith_encodeItems hf hr hi (moved_of_moveOperands (fun h => hnone h i hi) hops)

/-- The result of a signature that passes its check can be stored. -/
lemma exists_epilogue {s : Signature} (hs : s.validate = .ok s) (l : FrameLayout) :
    ∃ lines, epilogue s l = .ok lines := by
  obtain ⟨-, -, hresult⟩ := Signature.validate_eq_ok_iff.mp hs
  unfold epilogue
  cases hr : s.result with
  | none => exact ⟨_, rfl⟩
  | some a =>
    obtain ⟨shape, hshape⟩ := hresult a hr
    have hshape' : s.resultShape = .ok (some shape) := by
      rw [Signature.resultShape, hr]
      exact hshape
    dsimp only
    rw [hshape']
    exact ⟨_, rfl⟩

/-- A function has a plan, or a defect, or it is given up. -/
lemma failsWith_planFunction (hf : f.HasReadable) :
    FailsWith (fun e => (∃ d, e = .defect d) ∨ f.StopsConversion c x e) (planFunction c f) := by
  have haccess : ∀ e, IsAccessFault f e → (∃ d, e = .defect d) ∨ f.StopsConversion c x e :=
    fun e he => he.imp_right fun ⟨i, hi, h⟩ => .untold hi h
  unfold planFunction
  refine FailsWith.bind ?_ fun s hs => FailsWith.bind ?_ fun reserve hreserve =>
    FailsWith.bind ?_ fun l _ => ?_
  · refine (SourceFunction.failsWith_resolveSignature hf _ _).imp fun e he => ?_
    rcases he with he | ⟨rfl, s, hs, q, hq, hkind⟩
    · exact haccess e he
    · exact .inr (.result hs hq hkind)
  · exact FailsWith.mapError (fun d _ => trivial) fun d _ => .inl ⟨d, rfl⟩
  · refine (SourceFunction.failsWith_planFrame _ _).imp fun e he => ?_
    rcases he with he | ⟨rfl, align, halign, hwritable⟩
    · exact .inl he
    · exact .inr (.frame hs (mapError_eq_ok.mp hreserve) halign hwritable)
  · split_ifs
    · exact failsWith_ok _
    · exact (((SourceFunction.failsWith_poolRegister hf).imp haccess).map _).bind
        fun _ _ => failsWith_ok _

/-- A function with all its data has a result, or it is given up. -/
lemma failsWith_convertFunction (hf : f.HasReadable) (hdata : f.HasData x c.pool) :
    FailsWith (f.StopsConversion c x) (convertFunction c f) := by
  unfold convertFunction
  dsimp only
  split_ifs
  · exact failsWith_ok _
  · split
    · rename_i p hp
      have hplan := isPlanOf_of_planFunction hp
      have hpool := poolRegister_eq_ok hplan.register
      obtain ⟨reserve, -, hlayout⟩ := hplan.layout
      obtain ⟨entry, hentry⟩ := exists_preamble c.pool.name hlayout hpool
      obtain ⟨exit, hexit⟩ :=
        exists_epilogue (validate_of_resolveSignature hplan.signature) p.layout
      have hrecords (exit : List TargetInstruction) : FailsWith (f.StopsConversion c x)
          (f.body.mapM (convertRecord c f p.poolRegister (exit.map .native))) :=
        failsWith_mapM fun b hb => failsWith_convertRecord hf hdata
          (fun q hq => mem_poolCandidates (hpool q hq)) hplan.ripRelative _ hb
      unfold convertBody
      rw [hentry, hexit]
      refine (failsWith_ok entry).bind fun entry _ => ?_
      dsimp only
      split_ifs
      all_goals
        refine (failsWith_ok _).bind fun exit _ => (hrecords exit).bind fun results _ => ?_
        split_ifs <;> exact failsWith_ok _
    · exact failsWith_ok _
    · rename_i e hdefect he
      refine failsWith_error ?_
      rcases failsWith_planFunction hf e he with ⟨d, rfl⟩ | h
      · exact absurd rfl (hdefect d)
      · exact h

end Function

/-! ## Listings -/

/-- The lines of a function can be shown. -/
lemma exists_renderItems (style : ListingStyle) (lines : List Line) :
    ∃ text, renderItems style (lines.map Line.item) = .ok text := by
  have hlines : ∀ line : Line, ∃ text, line.item.lines style = .ok text := by
    intro line
    cases line <;> exact ⟨_, rfl⟩
  choose text htext using hlines
  refine ⟨_, map_eq_ok.mpr ⟨lines.map text, mapM_eq_ok.mpr ?_, rfl⟩⟩
  rw [List.forall₂_map_left_iff, List.forall₂_map_right_iff, List.forall₂_same]
  exact fun line _ => htext line

/-- The conversions among outcomes are outcomes. -/
lemma mem_of_mem_divide {outs : List (Except (List Diagnostic) ConvertedFunction)}
    {g : ConvertedFunction} (h : g ∈ (divide outs).2) : .ok g ∈ outs := by
  induction outs with
  | nil => cases h
  | cons out rest ih =>
    rw [divide] at h
    cases out with
    | ok g' =>
      rcases List.mem_cons.mp h with rfl | h
      · exact List.mem_cons_self
      · exact List.mem_cons_of_mem _ (ih h)
    | error ds => exact List.mem_cons_of_mem _ (ih h)

/-- Converted functions have a listing, if there is room for the pool. -/
lemma failsWith_renderUnit {c : UnitContext} (style : ListingStyle) (pool : Pool)
    {gs : List ConvertedFunction} (hgs : ∀ g ∈ gs, ∃ f, convertFunction c f = .ok (.ok g)) :
    FailsWith (fun s => pool.slots ≠ [] ∧ roomFor pool.size = .error s)
      (renderUnit style pool gs) := by
  refine FailsWith.bind ?_ fun lines _ => FailsWith.bind (failsWith_mapM fun g hg => ?_)
    fun blocks _ => failsWith_ok _
  · unfold renderPool
    split_ifs with hslots
    · exact failsWith_ok _
    · refine FailsWith.map (FailsWith.map (fun s hs => ?_) _) _
      exact ⟨by simpa using hslots, hs⟩
  · obtain ⟨f, hf⟩ := hgs g hg
    obtain ⟨-, r, entry, exit, parts, -, -, -, -, hitems⟩ := exists_lines_of_convertFunction hf
    obtain ⟨text, htext⟩ := exists_renderItems style (entry.map Line.native ++ parts.flatten)
    rw [renderFunction, ← hitems, htext]
    exact failsWith_ok _

/-! ## Units -/

/-- Why a unit is given up. -/
inductive GivesUp (o : Options) (text : String) : Fault → Prop
  /-- One of its lines cannot be read. -/
  | line {source : List Char} {s : Stop} (hsource : source ∈ text.toList.splitOn '\n')
      (h : Source.StopsAt source s) : GivesUp o text (.stop s)
  /-- Its records cannot be divided into functions. -/
  | division {records : List Record} {s : Stop} (hread : Source.readUnit text = .ok records)
      (h : StopsDivision records s) : GivesUp o text (.stop s)
  /-- Its data cannot be indexed. -/
  | index {records : List Record} {s : Stop} (hread : Source.readUnit text = .ok records)
      (h : StopsIndex records s) : GivesUp o text (.stop s)
  /-- The size of its pool is too long to be written. -/
  | size {functions : List SourceFunction} {x : DataIndex}
      (hread : readFunctions text = .ok (functions, x))
      (h : Text.isWritable (unitContext o x functions).pool.size = false) :
      GivesUp o text (.stop .numberUnwritable)
  | jobs (h : o.jobs = none) : GivesUp o text (.stop .jobsUnknown)
  /-- One of its functions that do not lack data is given up. -/
  | function {functions : List SourceFunction} {x : DataIndex} {f : SourceFunction} {e : Fault}
      (hread : readFunctions text = .ok (functions, x)) (hf : f ∈ todo o x functions)
      (h : f.StopsConversion (unitContext o x functions) x e) : GivesUp o text e
  /-- There is no room for its pool. -/
  | room {functions : List SourceFunction} {x : DataIndex} {s : Stop}
      (hread : readFunctions text = .ok (functions, x))
      (hslots : (unitContext o x functions).pool.slots ≠ [])
      (h : roomFor (unitContext o x functions).pool.size = .error s) : GivesUp o text (.stop s)

/-- The unit has defects, or it is given up. -/
inductive FailsOnly (o : Options) (text : String) : Failure → Prop
  | defects {ds : List Diagnostic} (h : ds ≠ []) : FailsOnly o text (.defects o.file ds)
  | fault {e : Fault} (h : GivesUp o text e) : FailsOnly o text (.fault e)

section Unit

variable {o : Options} {text : String}

/-- A unit without functions or data has a defect or is given up. -/
lemma failsWith_readFunctions (o : Options) (text : String) :
    FailsWith (fun e => (∃ d, e = .defect d) ∨ GivesUp o text e) (readFunctions text) := by
  refine ((Source.failsWith_readUnit text).imp fun e he => ?_).bind fun records hread =>
    ((failsWith_extractFunctions records).imp fun e he => ?_).bind fun functions _ =>
      ((DataIndex.failsWith_ofRecords records).imp fun e he => ?_).bind fun x _ => failsWith_ok _
  · rcases he with he | ⟨source, hsource, s, rfl, hs⟩
    · exact .inl he
    · exact .inr (.line hsource hs)
  · rcases he with ⟨d, rfl, -⟩ | ⟨s, rfl, hs⟩
    · exact .inl ⟨d, rfl⟩
    · exact .inr (.division hread hs)
  · rcases he with he | ⟨s, rfl, hs⟩
    · exact .inl he
    · exact .inr (.index hread hs)

/-- A function that does not lack data has a result in its unit, or it gives the unit up. -/
lemma failsWith_convertFunction_of_mem {functions : List SourceFunction} {x : DataIndex}
    (hread : readFunctions text = .ok (functions, x)) {f : SourceFunction}
    (hf : f ∈ todo o x functions) :
    FailsWith (GivesUp o text) (convertFunction (unitContext o x functions) f) := by
  obtain ⟨records, hrecords, hfunctions, -⟩ := readFunctions_eq_ok.mp hread
  obtain ⟨hmem, hfound⟩ := List.mem_filter.mp hf
  rw [Option.isNone_iff_eq_none] at hfound
  have hreadable : f.HasReadable := fun i hi =>
    readUnit_isReadable hrecords (mem_of_extractFunctions hfunctions hmem hi)
  refine (failsWith_convertFunction hreadable ?_).imp fun e he => .function hread hf he
  intro i hi a ha hrip
  obtain ⟨b, hb⟩ := exists_lookup_of_requireConstants hmem hfound hi ha hrip
  exact ⟨b, hb, symbol_mem_requireConstants hmem hfound
    (SourceFunction.mem_addresses.mpr ⟨hi, ha⟩) hrip hb⟩

/-- A unit with a function that is given up is given up itself. -/
lemma exists_fault_of_convertFunction {functions : List SourceFunction} {x : DataIndex}
    (hread : readFunctions text = .ok (functions, x)) {f : SourceFunction}
    (hf : f ∈ todo o x functions) {e : Fault}
    (he : convertFunction (unitContext o x functions) f = .error e) :
    ∃ e', convert o text = .error (.fault e') := by
  rw [convert_of_readFunctions hread]
  dsimp only [convertRead]
  split_ifs
  · exact ⟨_, rfl⟩
  · exact ⟨_, rfl⟩
  cases hresults : (todo o x functions).mapM (convertFunction (unitContext o x functions)) with
  | error e' => exact ⟨e', rfl⟩
  | ok results =>
    obtain ⟨r, -, hr⟩ := exists_of_mem_left (mapM_eq_ok.mp hresults) hf
    cases he.symm.trans hr

/-- A unit that is not converted has defects or is given up. -/
lemma failsWith_convert (o : Options) (text : String) :
    FailsWith (FailsOnly o text) (convert o text) := by
  rw [convert_eq]
  refine ((failsWith_readFunctions o text).mapError fun e he => ?_).bind
    fun ⟨functions, x⟩ hread => ?_
  · rcases he with ⟨d, rfl⟩ | he
    · exact .defects (List.cons_ne_nil d [])
    · cases e with
      | defect d => exact .defects (List.cons_ne_nil d [])
      | _ => exact .fault he
  have hread := mapError_eq_ok.mp hread
  dsimp only [convertRead]
  split_ifs with hsize hjobs
  · exact failsWith_error (.fault (.size hread (by simpa using hsize)))
  · exact failsWith_error (.fault (.jobs (by simpa using hjobs)))
  refine ((failsWith_mapM fun f hf => failsWith_convertFunction_of_mem hread hf).mapError
    fun e he => .fault he).bind fun results hresults => ?_
  have hresults := mapError_eq_ok.mp hresults
  split_ifs with hds
  · exact failsWith_error (.defects (by simpa using hds))
  · refine FailsWith.bind ?_ fun listing _ => failsWith_ok _
    refine (failsWith_renderUnit o.style (unitContext o x functions).pool
      (c := unitContext o x functions) fun g hg => ?_).mapError fun s hs =>
        .fault (.room hread hs.1 hs.2)
    obtain ⟨f, -, hf⟩ := List.mem_map.mp (mem_of_mem_divide hg)
    unfold outcome at hf
    split at hf
    · cases hf
    · split at hf
      · rename_i r hr
        obtain rfl : r = .ok g := hf
        obtain ⟨f', -, -, hconvert⟩ := exists_of_lookup hresults hr
        exact ⟨f', hconvert⟩
      · cases hf

end Unit

end AsmBridge
