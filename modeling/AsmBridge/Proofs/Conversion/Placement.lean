import AsmBridge.Proofs.Conversion.Lines
import AsmBridge.Proofs.Function.Placement

/-!
# Conversions elsewhere in a unit

The conversion of a function does not depend on where its records stand: its plan is the same
(`mirrors_planFunction`), and so are the items of its body, but for the places of its directives
(`mirrors_convertFunction`). Those of a function that cannot be converted are the same defects, at
other places.
-/

namespace AsmBridge

def Item.unplaced : Item → Item
  | .directive d => .directive d.unplaced
  | item => item

def ConvertedFunction.unplaced (g : ConvertedFunction) : ConvertedFunction :=
  { g with source := g.source.unplaced, items := g.items.map (·.unplaced) }

def FirstAccess.unplaced (a : FirstAccess) : FirstAccess :=
  { a with instruction := a.instruction.unplaced }

/-- The diagnostic is the other one without its place. -/
def Diagnostic.IsUnplaced (d d' : Diagnostic) : Prop := d' = d.unplaced

/-- What fails with faults that have no place is the same elsewhere. -/
lemma mirrors_mapError {ε α : Type} (x : Except ε α) {k : ε → Fault}
    (hk : ∀ e, IsUnplaced (k e) (k e)) :
    Mirrors IsUnplaced id (x.mapError k) (x.mapError k) := by
  refine (Mirrors.refl (E := Eq) fun _ _ => rfl).mapError ?_
  rintro e _ rfl
  exact hk e

/-! ## The parts of a function -/

namespace SourceFunction

variable (f : SourceFunction)

@[simp] lemma unplaced_name : f.unplaced.name = f.name := rfl

@[simp] lemma unplaced_instructions :
    f.unplaced.instructions = f.instructions.map (·.unplaced) := by
  have hitem : (fun b : BodyItem => b.unplaced.instruction?) =
      fun b => b.instruction?.map (·.unplaced) := by
    funext b
    cases b <;> rfl
  simp only [instructions, unplaced, List.filterMap_map, List.map_filterMap, Function.comp_def,
    hitem]

@[simp] lemma unplaced_labels : f.unplaced.labels = f.labels := by
  have hitem : (fun b : BodyItem => b.unplaced.label?.map (·.name)) =
      fun b => b.label?.map (·.name) := by
    funext b
    cases b <;> rfl
  simp only [labels, unplaced, List.filterMap_map, Function.comp_def, hitem]

@[simp] lemma unplaced_returns : f.unplaced.returns = f.returns := by
  have hitem : (fun b : BodyItem => b.unplaced.isEpilogue) = fun b => b.isEpilogue := by
    funext b
    cases b <;> rfl
  simp only [returns, unplaced, List.countP_map, Function.comp_def, hitem]

@[simp] lemma unplaced_addresses :
    f.unplaced.addresses = f.addresses.map fun p => (p.1.unplaced, p.2) := by
  simp only [addresses, unplaced_instructions, List.flatMap_map, List.map_flatMap, List.map_map]
  rfl

@[simp] lemma unplaced_references : f.unplaced.references = f.references := by
  simp only [references, unplaced_instructions, List.flatMap_map]
  rfl

end SourceFunction

/-! ## The plan of a function -/

section Plan

variable (f : SourceFunction)

lemma mirrors_stackArguments :
    Mirrors IsUnplaced id f.stackArguments f.unplaced.stackArguments := by
  rw [SourceFunction.stackArguments, SourceFunction.stackArguments, f.unplaced_addresses]
  refine Mirrors.foldlM (m := id) (fun n p _ => ?_) 0
  exact .ite Iff.rfl (fun _ => .ok n) fun _ => .ite Iff.rfl (fun _ => .error rfl) fun _ => .ok _

lemma note_unplaced (found : List FirstAccess) (a : FirstAccess) :
    FirstAccess.note (found.map (·.unplaced)) a.unplaced =
      (FirstAccess.note found a).map (·.unplaced) := by
  have hany : (found.map (·.unplaced)).any (·.family == a.unplaced.family) =
      found.any (·.family == a.family) := List.any_map
  refine ite_eq_apply_ite (by rw [hany]) rfl ?_
  rw [List.map_append]
  rfl

lemma foldl_note_unplaced (access : Register → FirstAccess) (rs : List Register)
    (found : List FirstAccess) :
    rs.foldl (fun found r => FirstAccess.note found (access r).unplaced)
        (found.map (·.unplaced)) =
      (rs.foldl (fun found r => FirstAccess.note found (access r)) found).map (·.unplaced) := by
  induction rs generalizing found with
  | nil => rfl
  | cons r rs ih => rw [List.foldl_cons, List.foldl_cons, note_unplaced, ih]

lemma mirrors_ofInstruction (i : Instruction) :
    Mirrors IsUnplaced id (Access.ofInstruction i) (Access.ofInstruction i.unplaced) := by
  change Mirrors IsUnplaced id _ (Access.ofInstruction i)
  unfold Access.ofInstruction
  dsimp only
  refine .ite Iff.rfl (fun _ => .ok _) fun _ => .ite Iff.rfl (fun _ => .ok _) fun _ => ?_
  split
  · exact .ok _
  · exact .error rfl
  · exact (mirrors_mapError (k := Fault.encoding) _ fun _ => rfl).bind fun _ _ =>
      (mirrors_mapError (k := Fault.stop) _ fun _ => rfl).bind fun _ _ => .ok _

lemma mirrors_firstAccesses :
    Mirrors IsUnplaced (List.map FirstAccess.unplaced) f.firstAccesses
      f.unplaced.firstAccesses := by
  rw [SourceFunction.firstAccesses, SourceFunction.firstAccesses, f.unplaced_instructions]
  refine Mirrors.foldlM (m := List.map FirstAccess.unplaced) (fun found i _ => ?_) []
  refine (mirrors_ofInstruction i).bind fun a _ => ?_
  dsimp only [id]
  have hreads := foldl_note_unplaced
    (fun r => ⟨r.family, true, r, i, a.narrow.contains r⟩) a.reads found
  have hwrites := foldl_note_unplaced (fun r => ⟨r.family, false, r, i, false⟩) a.writes
    (a.reads.foldl (fun found r =>
      FirstAccess.note found ⟨r.family, true, r, i, a.narrow.contains r⟩) found)
  rw [← hreads] at hwrites
  refine (congrArg (Mirrors _ _ _) ?_).mpr (.ok _)
  exact congrArg Except.ok hwrites

lemma mirrors_countArguments (name : String) (c : ArgClass) (registers : List Register)
    (found : List FirstAccess) :
    Mirrors IsUnplaced id (countArguments name c registers found)
      (countArguments name c registers (found.map FirstAccess.unplaced)) := by
  refine Mirrors.foldlM_same (m := id) (fun n p _ => ?_) 0
  obtain ⟨r, position⟩ := p
  unfold noteArgument
  dsimp only [id]
  have hfind : (found.map FirstAccess.unplaced).find? (·.family == r.family) =
      (found.find? (·.family == r.family)).map FirstAccess.unplaced := List.find?_map
  rw [hfind]
  cases found.find? (·.family == r.family) with
  | none => exact .ok n
  | some a =>
    refine .ite Iff.rfl (fun _ => .ok n) fun _ => ?_
    have hdefect : firstReadDefect? c r a.unplaced = firstReadDefect? c r a := rfl
    rw [hdefect]
    cases firstReadDefect? c r a with
    | some d => exact .error rfl
    | none => exact .ok _

lemma mirrors_discoverSignature (name : String) :
    Mirrors IsUnplaced id (f.discoverSignature name) (f.unplaced.discoverSignature name) :=
  (mirrors_firstAccesses f).bind fun found _ =>
    (mirrors_countArguments _ _ _ found).bind fun _ _ =>
      (mirrors_countArguments _ _ _ found).bind fun _ _ =>
        (mirrors_stackArguments f).bind fun _ _ => .ok _

lemma isUnplaced_of_validate {s : Signature} {e : Fault} (h : s.validate = .error e) :
    IsUnplaced e e := by
  unfold Signature.validate at h
  split at h
  · rename_i hd
    obtain ⟨a, -, ha⟩ := List.exists_of_findSome?_eq_some hd
    unfold Signature.argumentDefect? at ha
    split_ifs at ha
    obtain rfl := Option.some.inj ha
    rw [← Except.error.inj h]
    rfl
  · cases h
  · split at h
    · cases h
    · rw [← Except.error.inj h]
      rfl
    · rw [← Except.error.inj h]
      rfl

lemma mirrors_resolveSignature (symbol : String) (prototypes : Prototypes) :
    Mirrors IsUnplaced id (f.resolveSignature symbol prototypes)
      (f.unplaced.resolveSignature symbol prototypes) := by
  have hvalidate : ∀ s : Signature, Mirrors IsUnplaced id s.validate s.validate :=
    fun s => .refl fun _ => isUnplaced_of_validate
  unfold SourceFunction.resolveSignature
  rw [f.unplaced_name]
  dsimp only
  split
  · exact (mirrors_stackArguments f).bind fun _ _ => hvalidate _
  · exact (mirrors_discoverSignature f symbol).bind fun s _ => hvalidate s

lemma mirrors_resolve (helpers : Helpers) (i : Instruction) :
    Mirrors Diagnostic.IsUnplaced id (helpers.resolve f i)
      (helpers.resolve f.unplaced i.unplaced) := by
  unfold Helpers.resolve
  have htarget : i.unplaced.target? = i.target? := rfl
  have hsegmented : f.unplaced.isSegmented = f.isSegmented := rfl
  rw [htarget, hsegmented]
  cases i.target? with
  | none => exact .error rfl
  | some symbol =>
    dsimp only
    cases helpers.find? (targetName symbol f.isSegmented) with
    | none => exact .error rfl
    | some h => exact .ok _

lemma mirrors_reserve (helpers : Helpers) :
    Mirrors Diagnostic.IsUnplaced id (helpers.reserve f) (helpers.reserve f.unplaced) := by
  have hcalls : f.unplaced.instructions.filter (·.isCall) =
      (f.instructions.filter (·.isCall)).map (·.unplaced) := by
    rw [f.unplaced_instructions, List.filter_map]
    rfl
  rw [Helpers.reserve, Helpers.reserve, hcalls]
  exact Mirrors.foldlM (m := id) (fun n i _ => (mirrors_resolve f helpers i).map_same _) 0

lemma mirrors_stackAlignment :
    Mirrors IsUnplaced id f.stackAlignment f.unplaced.stackAlignment := by
  rw [SourceFunction.stackAlignment, SourceFunction.stackAlignment, f.unplaced_addresses]
  refine Mirrors.foldlM (m := id) (fun n p _ => ?_) 16
  exact .ite Iff.rfl (fun _ => .ok n) fun _ => .ite Iff.rfl (fun _ => .ok _) fun _ => .error rfl

lemma mirrors_planFrame (slots : List ArgSlot) (callReserve : ℕ) :
    Mirrors IsUnplaced id (f.planFrame slots callReserve)
      (f.unplaced.planFrame slots callReserve) := by
  have hpushes : f.unplaced.instructions.countP (fun i => i.mnemonic == "push") =
      f.instructions.countP fun i => i.mnemonic == "push" := by
    rw [f.unplaced_instructions, List.countP_map]
    rfl
  have hframed : f.unplaced.needsFrame = f.needsFrame := by
    funext spills callReserve
    unfold SourceFunction.needsFrame
    rw [f.unplaced_instructions, List.any_map]
    rfl
  have hdynamic : f.unplaced.dynamic = f.dynamic.map (·.unplaced) := rfl
  unfold SourceFunction.planFrame
  rw [hdynamic, hpushes, hframed]
  cases f.dynamic with
  | some i => exact .error rfl
  | none =>
    refine .ite Iff.rfl (fun _ => .error rfl) fun _ => ?_
    refine (mirrors_stackAlignment f).bind fun align _ => ?_
    exact .ite Iff.rfl (fun _ => .ok _) fun _ => .error rfl

lemma mirrors_poolRegister :
    Mirrors IsUnplaced id f.poolRegister f.unplaced.poolRegister := by
  have hfamilies : Mirrors IsUnplaced (List.map id) (f.instructions.mapM SourceFunction.families)
      (f.unplaced.instructions.mapM SourceFunction.families) := by
    rw [f.unplaced_instructions]
    exact Mirrors.mapM fun i _ => (mirrors_ofInstruction i).bind fun _ _ => .ok _
  rw [List.map_id_fun] at hfamilies
  refine hfamilies.bind fun used _ => ?_
  dsimp only [id]
  split
  · exact .ok _
  · exact .error rfl

/-- The plan of a function does not depend on where it stands. -/
lemma mirrors_planFunction (c : UnitContext) :
    Mirrors IsUnplaced id (planFunction c f) (planFunction c f.unplaced) := by
  refine (mirrors_resolveSignature f _ _).bind fun signature _ => ?_
  refine ((mirrors_reserve f c.helpers).mapError fun _ _ h => h ▸ rfl).bind
    fun callReserve _ => ?_
  refine (mirrors_planFrame f _ _).bind fun layout _ => ?_
  dsimp only [id]
  rw [f.unplaced_references]
  split
  · exact .ok _
  · exact ((mirrors_poolRegister f).map_same some).bind fun _ _ => .ok _

end Plan

/-! ## The body of a function -/

section Body

/-- The conversion of a body between the lines at its entry and with those in place of its
returns. -/
def convertRecords (c : UnitContext) (f : SourceFunction) (p : FunctionPlan)
    (entry exit : List TargetInstruction) :
    Except Fault (Except (List Diagnostic) ConvertedFunction) := do
  let results ← f.body.mapM (convertRecord c f p.poolRegister (exit.map .native))
  let collected := collect f (f.body.zip results)
  if collected.1.isEmpty then
    return .ok
      { source := f
        symbol := c.options.symbol f
        signature := p.signature
        layout := p.layout
        items := entry.map .native ++ collected.2 }
  else return .error collected.1

/-- The lines at the entry of a body and in place of its returns depend on its plan and on whether
it returns. -/
lemma mirrors_convertBody (c : UnitContext) {f f' : SourceFunction}
    (hreturns : f'.returns = f.returns) (p : FunctionPlan) {E : Fault → Fault → Prop}
    {g : Except (List Diagnostic) ConvertedFunction → Except (List Diagnostic) ConvertedFunction}
    (hE : ∀ s : Stop, E (.stop s) (.stop s))
    (h : ∀ entry exit, Mirrors E g (convertRecords c f p entry exit)
      (convertRecords c f' p entry exit)) :
    Mirrors E g (convertBody c f p) (convertBody c f' p) := by
  have hstop : ∀ x : Except Stop (List TargetInstruction),
      Mirrors E id (x.mapError .stop) (x.mapError .stop) := by
    rintro (s | lines)
    · exact .error (hE s)
    · exact .ok lines
  refine (hstop _).bind fun entry _ => ?_
  rw [hreturns]
  exact .ite Iff.rfl (fun _ => h entry []) fun _ => (hstop _).bind fun exit _ => h entry exit

/-- The result of converting a record, elsewhere. -/
def unplacedResult (r : ItemsOrDefect) : ItemsOrDefect :=
  (r.map (List.map (·.unplaced))).mapError (·.unplaced)

variable (c : UnitContext) (f : SourceFunction) (poolRegister : Option Register)

lemma mirrors_convertData (d : Directive) :
    Mirrors Eq unplacedResult (convertData f d) (convertData f.unplaced d.unplaced) := by
  have hbytes : d.unplaced.bytes = d.bytes := rfl
  unfold convertData
  rw [hbytes]
  split
  · exact .ok _
  · exact .error rfl
  · exact .ok _

lemma mirrors_encodeItems (i : Instruction) (ops : List Operand) :
    Mirrors IsUnplaced unplacedResult (encodeItems f i ops)
      (encodeItems f.unplaced i.unplaced ops) := by
  unfold encodeItems
  have hencode : encode i.unplaced.mnemonic i.unplaced.mark ops =
      encode i.mnemonic i.mark ops := rfl
  rw [hencode]
  cases encode i.mnemonic i.mark ops with
  | ok bytes => exact .ok _
  | error e => exact .ite Iff.rfl (fun _ => .ok _) fun _ => .error rfl

lemma mirrors_convertCode (i : Instruction) :
    Mirrors IsUnplaced unplacedResult (convertCode c f poolRegister i)
      (convertCode c f.unplaced poolRegister i.unplaced) := by
  have hops : Mirrors IsUnplaced id (moveOperands c.pool poolRegister i.operands)
      (moveOperands c.pool poolRegister i.unplaced.operands) := by
    cases poolRegister with
    | none => exact .ok _
    | some q => exact mirrors_mapError _ fun _ => rfl
  rw [convertCode_eq, convertCode_eq]
  exact hops.bind fun ops _ => mirrors_encodeItems f i ops

lemma mirrors_convertCall (i : Instruction) :
    Mirrors Eq unplacedResult (convertCall c f poolRegister i)
      (convertCall c f.unplaced poolRegister i.unplaced) := by
  have hcall : Mirrors Diagnostic.IsUnplaced id (c.helpers.callLine f i)
      (c.helpers.callLine f.unplaced i.unplaced) :=
    (mirrors_resolve f c.helpers i).map_same _
  unfold convertCall
  generalize c.helpers.callLine f i = x, c.helpers.callLine f.unplaced i.unplaced = y at hcall
  cases hcall with
  | ok call =>
    refine (Mirrors.refl fun _ _ => rfl).bind fun anchor _ => ?_
    cases anchor with
    | none => exact .ok (Except.ok [Item.native call])
    | some load => exact .ok (Except.ok [Item.native call, Item.native load])
  | error h =>
    obtain rfl := h
    exact .ok _

lemma mirrors_convertInstruction (i : Instruction) :
    Mirrors IsUnplaced unplacedResult (convertInstruction c f poolRegister i)
      (convertInstruction c f.unplaced poolRegister i.unplaced) := by
  unfold convertInstruction
  have hname : i.unplaced.jumpName? = i.jumpName? := rfl
  rw [hname]
  cases i.jumpName? with
  | some name =>
    have htarget : Helpers.jumpTarget f.unplaced i.unplaced =
        (Helpers.jumpTarget f i).mapError (·.unplaced) := by
      unfold Helpers.jumpTarget
      have htarget : i.unplaced.target? = i.target? := rfl
      rw [f.unplaced_labels, htarget]
      cases i.target? with
      | none => rfl
      | some target => exact ite_eq_apply_ite Iff.rfl rfl rfl
    dsimp only
    rw [htarget]
    cases Helpers.jumpTarget f i with
    | ok target => exact .ok (Except.ok [Item.native (.jump name (targetLabel target))])
    | error d => exact .ok (Except.error d)
  | none =>
    refine .ite Iff.rfl (fun _ => ?_) fun _ => .ite Iff.rfl (fun _ => .ok _) fun _ =>
      mirrors_convertCode c f poolRegister i
    exact (mirrors_convertCall c f poolRegister i).mapError fun _ _ h => h ▸ rfl

/-- What stands in place of a record does not depend on where that stands, but for the places of
directives. -/
lemma mirrors_convertRecord (exit : List TargetInstruction) (b : BodyItem) :
    Mirrors IsUnplaced unplacedResult (convertRecord c f poolRegister (exit.map .native) b)
      (convertRecord c f.unplaced poolRegister (exit.map .native) b.unplaced) := by
  cases b with
  | label l => exact .ok (Except.ok [Item.label l.name])
  | directive d =>
    refine .ite Iff.rfl (fun _ => ?_) fun _ => .ok (Except.ok [Item.directive d])
    exact (mirrors_convertData f d).mapError fun _ _ h => h ▸ rfl
  | instruction i => exact mirrors_convertInstruction c f poolRegister i
  | epilogue e =>
    have h : (exit.map Item.native).map (·.unplaced) = exit.map .native := by
      rw [List.map_map]
      rfl
    have h' : Mirrors IsUnplaced unplacedResult (.ok (.ok (exit.map .native))) _ := .ok _
    rwa [unplacedResult, Except.map, h] at h'

lemma collect_unplaced (bs : List (BodyItem × ItemsOrDefect)) :
    collect f.unplaced (bs.map fun p => (p.1.unplaced, unplacedResult p.2)) =
      ((collect f bs).1.map (·.unplaced), (collect f bs).2.map (·.unplaced)) := by
  induction bs with
  | nil => rfl
  | cons p bs ih =>
    obtain ⟨b, r⟩ := p
    rw [List.map_cons, collect, ih, collect]
    cases r with
    | ok items => exact Prod.ext rfl List.map_append.symm
    | error d =>
      refine Prod.ext (congrArg (· :: _) ?_) rfl
      cases b <;> rfl

/-- The result of converting a function, elsewhere. -/
def unplacedOutcome (r : Except (List Diagnostic) ConvertedFunction) :
    Except (List Diagnostic) ConvertedFunction :=
  (r.map (·.unplaced)).mapError (List.map (·.unplaced))

lemma mirrors_convertRecords (p : FunctionPlan) (entry exit : List TargetInstruction) :
    Mirrors IsUnplaced unplacedOutcome (convertRecords c f p entry exit)
      (convertRecords c f.unplaced p entry exit) := by
  refine (Mirrors.mapM (g := BodyItem.unplaced) (m := unplacedResult) fun b _ =>
    mirrors_convertRecord c f p.poolRegister exit b).bind fun results _ => ?_
  have hzip : f.unplaced.body.zip (results.map unplacedResult) =
      (f.body.zip results).map fun q => (q.1.unplaced, unplacedResult q.2) := List.zip_map
  rw [hzip, collect_unplaced]
  refine .ite (by simp) (fun _ => ?_) fun _ => .ok (Except.error _)
  have hentry : (entry.map Item.native).map (·.unplaced) = entry.map .native := by
    rw [List.map_map]
    rfl
  refine (congrArg (Mirrors _ _ _) ?_).mpr (.ok _)
  simp only [unplacedOutcome, Except.map, Except.mapError, ConvertedFunction.unplaced,
    List.map_append, hentry]
  rfl

lemma problems_unplaced : problems f.unplaced = (problems f).map (·.unplaced) := by
  unfold problems
  rw [f.unplaced_instructions, List.filterMap_map, List.map_filterMap]
  refine List.filterMap_congr fun i _ => ?_
  dsimp only [Function.comp, Instruction.unplaced]
  cases i.problem <;> rfl

/-- The conversion of a function does not depend on where it stands, but for the places of
directives. -/
lemma mirrors_convertFunction :
    Mirrors IsUnplaced unplacedOutcome (convertFunction c f) (convertFunction c f.unplaced) := by
  unfold convertFunction
  dsimp only
  rw [problems_unplaced]
  refine .ite (by simp) (fun _ => .ok (Except.error _)) fun _ => ?_
  have hplan := mirrors_planFunction f c
  generalize planFunction c f = x, planFunction c f.unplaced = y at hplan
  cases hplan with
  | ok p =>
    exact mirrors_convertBody c f.unplaced_returns p (fun _ => rfl) (mirrors_convertRecords c f p)
  | @error e e' h =>
    obtain rfl := h
    cases e with
    | defect d => exact .ok (Except.error [d.located (some f.name) none])
    | _ => exact .error rfl

end Body

end AsmBridge
