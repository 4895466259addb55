import AsmBridge.Proofs.Conversion.Blocks
import AsmBridge.Proofs.Conversion.Independence
import AsmBridge.Proofs.Conversion.Placement
import AsmBridge.Proofs.Data.Placement

/-!
# Conversion of one unit behind another

Units without data are converted function by function, in one context
(`convert_eq_ok_iff_of_withoutData`). What is told and shown of a function does not depend on where
it stands, nor on directives at its end that the listing leaves out. So a unit behind which another
one stands is converted to the functions of the one and of the other, and its text is that of the
one with the blocks of the other behind it (`convert_append`).
-/

namespace AsmBridge

/-! ## Directives at the end of a function -/

/-- The conversion with directives at its end. -/
def ConvertedFunction.withDirectives (g : ConvertedFunction) (ds : List Directive) :
    ConvertedFunction :=
  { g with source := g.source.withDirectives ds, items := g.items ++ ds.map .directive }

section Directives

variable (c : UnitContext) (f : SourceFunction) {ds : List Directive}

lemma collect_append (bs bs' : List (BodyItem × ItemsOrDefect)) :
    collect f (bs ++ bs') =
      ((collect f bs).1 ++ (collect f bs').1, (collect f bs).2 ++ (collect f bs').2) := by
  induction bs with
  | nil => rfl
  | cons p bs ih =>
    obtain ⟨b, r⟩ := p
    rw [List.cons_append, collect, ih, collect]
    cases r with
    | ok items => exact Prod.ext rfl (List.append_assoc _ _ _).symm
    | error d => rfl

/-- Directives without data are kept. -/
lemma collect_directives (ds : List Directive) :
    collect f ((ds.map BodyItem.directive).zip (ds.map fun d => .ok [Item.directive d])) =
      ([], ds.map .directive) := by
  induction ds with
  | nil => rfl
  | cons d ds ih =>
    rw [List.map_cons, List.map_cons, List.zip_cons_cons, collect, ih]
    rfl

lemma collect_withDirectives (ds : List Directive) (bs : List (BodyItem × ItemsOrDefect)) :
    collect (f.withDirectives ds) bs = collect f bs := by
  induction bs with
  | nil => rfl
  | cons p bs ih =>
    obtain ⟨b, r⟩ := p
    rw [collect, ih, collect]
    rfl

lemma mapM_convertRecord_directives (hds : ∀ d ∈ ds, Directive.isDataName d.name = false)
    (r : Option Register) (exit : List Item) :
    (ds.map BodyItem.directive).mapM (convertRecord c f r exit) =
      .ok (ds.map fun d => .ok [.directive d]) := by
  rw [mapM_eq_ok, List.forall₂_map_left_iff, List.forall₂_map_right_iff, List.forall₂_same]
  intro d hd
  rw [convertRecord, hds d hd]
  rfl

lemma returns_withDirectives (ds : List Directive) :
    (f.withDirectives ds).returns = f.returns := by
  simp [SourceFunction.returns, SourceFunction.withDirectives, BodyItem.isEpilogue]

lemma mirrors_convertRecords_withDirectives
    (hds : ∀ d ∈ ds, Directive.isDataName d.name = false) (p : FunctionPlan)
    (entry exit : List TargetInstruction) :
    Mirrors Eq (Except.map (·.withDirectives ds)) (convertRecords c f p entry exit)
      (convertRecords c (f.withDirectives ds) p entry exit) := by
  have hmapM : Mirrors Eq (· ++ ds.map fun d => .ok [Item.directive d])
      (f.body.mapM (convertRecord c f p.poolRegister (exit.map .native)))
      ((f.withDirectives ds).body.mapM
        (convertRecord c (f.withDirectives ds) p.poolRegister (exit.map .native))) := by
    rw [body_withDirectives, convertRecord_withDirectives, List.mapM_append,
      mapM_convertRecord_directives c f hds]
    cases f.body.mapM (convertRecord c f p.poolRegister (exit.map .native)) with
    | error e => exact .error rfl
    | ok results => exact .ok results
  refine hmapM.bind fun results hresults => ?_
  have hcollect : collect (f.withDirectives ds) ((f.body ++ ds.map BodyItem.directive).zip
        (results ++ ds.map fun d => .ok [Item.directive d])) =
      ((collect f (f.body.zip results)).1,
        (collect f (f.body.zip results)).2 ++ ds.map .directive) := by
    rw [collect_withDirectives, List.zip_append (mapM_eq_ok.mp hresults).length_eq, collect_append,
      collect_directives, List.append_nil]
  rw [body_withDirectives]
  dsimp only
  rw [hcollect, ← List.append_assoc]
  refine .ite Iff.rfl (fun _ => ?_) fun _ => .ok (Except.error _)
  exact .ok (Except.ok _)

/-- Directives without data at the end of a function stand at the end of its conversion. -/
lemma mirrors_convertFunction_withDirectives
    (hds : ∀ d ∈ ds, Directive.isDataName d.name = false) :
    Mirrors Eq (Except.map (·.withDirectives ds)) (convertFunction c f)
      (convertFunction c (f.withDirectives ds)) := by
  unfold convertFunction
  dsimp only
  rw [problems_withDirectives, planFunction_withDirectives]
  refine .ite Iff.rfl (fun _ => .ok (Except.error _)) fun _ => ?_
  cases planFunction c f with
  | ok p =>
    exact mirrors_convertBody c (returns_withDirectives f ds) p (fun _ => rfl)
      (mirrors_convertRecords_withDirectives c f hds p)
  | error e =>
    cases e with
    | defect d => exact .ok (Except.error [d.located (some f.name) none])
    | _ => exact .error rfl

end Directives

/-! ## What is shown of a function -/

/-- The second conversion is told and shown like the first one. -/
structure ConvertedFunction.IsAlike (style : ListingStyle) (g g' : ConvertedFunction) : Prop where
  info : g'.info = g.info
  signature : g'.signature = g.signature
  block : renderFunction style g' = renderFunction style g

section Alike

variable {style : ListingStyle} {g g' : ConvertedFunction}

lemma isAlike_withDirectives (hstyle : style.directives = false) (g : ConvertedFunction)
    (ds : List Directive) : g.IsAlike style (g.withDirectives ds) where
  info := rfl
  signature := rfl
  block := by
    have hlines : (ds.map Item.directive).mapM (Item.lines style) = .ok (ds.map fun _ => []) := by
      rw [mapM_eq_ok, List.forall₂_map_left_iff, List.forall₂_map_right_iff, List.forall₂_same]
      intro d _
      rw [Item.lines, hstyle]
      rfl
    have hitems : renderItems style (g.items ++ ds.map .directive) =
        renderItems style g.items := by
      rw [renderItems, renderItems, List.mapM_append, hlines]
      cases g.items.mapM (Item.lines style) with
      | error e => rfl
      | ok lines =>
        change Except.ok (lines ++ ds.map fun _ => []).flatten = .ok lines.flatten
        simp
    rw [renderFunction, ConvertedFunction.withDirectives, hitems]
    rfl

lemma isAlike_unplaced (style : ListingStyle) (g : ConvertedFunction) :
    g.IsAlike style g.unplaced where
  info := rfl
  signature := rfl
  block := by
    have hitems : renderItems style (g.items.map (·.unplaced)) = renderItems style g.items := by
      have hlines : Item.lines style ∘ (fun item => item.unplaced) = Item.lines style :=
        funext fun item => by cases item <;> rfl
      rw [renderItems, List.mapM_map, hlines]
      rfl
    rw [renderFunction, ConvertedFunction.unplaced, hitems]
    rfl

lemma isAlike_of_unplaced (h : g'.unplaced = g.unplaced) : g.IsAlike style g' := by
  have hg := isAlike_unplaced style g
  have hg' := isAlike_unplaced style g'
  rw [h] at hg'
  exact ⟨hg'.info.symm.trans hg.info, hg'.signature.symm.trans hg.signature,
    hg'.block.symm.trans hg.block⟩

end Alike

/-! ## Outcomes -/

/-- The second result is a conversion told and shown like the first one, or both are defects. -/
inductive OutcomeAlike (style : ListingStyle) : Except (List Diagnostic) ConvertedFunction →
    Except (List Diagnostic) ConvertedFunction → Prop
  | ok {g g' : ConvertedFunction} (h : g.IsAlike style g') : OutcomeAlike style (.ok g) (.ok g')
  | error (ds ds' : List Diagnostic) : OutcomeAlike style (.error ds) (.error ds')

/-- The second function is the first one with directives at its end that are no data, or the first
one elsewhere. -/
inductive SourceFunction.IsAlike (f : SourceFunction) : SourceFunction → Prop
  | withDirectives {ds : List Directive} (hds : ∀ d ∈ ds, Directive.isDataName d.name = false) :
      IsAlike f (f.withDirectives ds)
  | moved {f' : SourceFunction} (h : f'.unplaced = f.unplaced) : IsAlike f f'

lemma SourceFunction.IsAlike.label_eq {f f' : SourceFunction} (h : f.IsAlike f') :
    f'.label = f.label := by
  cases h with
  | withDirectives => rfl
  | moved h => exact (congrArg SourceFunction.label h :)

/-- A function elsewhere has a result that is alike. -/
lemma exists_outcomeAlike_of_unplaced {c : UnitContext} {style : ListingStyle}
    {f f' : SourceFunction} (h : f'.unplaced = f.unplaced)
    {r : Except (List Diagnostic) ConvertedFunction} (hr : convertFunction c f = .ok r) :
    ∃ r', OutcomeAlike style r r' ∧ convertFunction c f' = .ok r' := by
  have hmirrors := mirrors_convertFunction c f'
  rw [h] at hmirrors
  obtain ⟨r', hr', heq⟩ := (mirrors_convertFunction c f).exists_ok_of_ok hmirrors hr
  refine ⟨r', ?_, hr'⟩
  cases r <;> cases r'
  · exact .error _ _
  · cases heq
  · cases heq
  · exact .ok (isAlike_of_unplaced (Except.ok.inj heq))

/-- Functions that are alike have results that are alike. -/
lemma exists_outcomeAlike {c : UnitContext} {style : ListingStyle}
    (hstyle : style.directives = false) {f f' : SourceFunction} (h : f.IsAlike f')
    {r : Except (List Diagnostic) ConvertedFunction} (hr : convertFunction c f = .ok r) :
    ∃ r', OutcomeAlike style r r' ∧ convertFunction c f' = .ok r' := by
  cases h with
  | @withDirectives ds hds =>
    refine ⟨_, ?_, (mirrors_convertFunction_withDirectives c f hds).eq_ok hr⟩
    cases r with
    | ok g => exact .ok (isAlike_withDirectives hstyle g ds)
    | error ds => exact .error _ _
  | moved h => exact exists_outcomeAlike_of_unplaced h hr

/-- Related values behind the same keys. -/
lemma forall₂_zip_left {κ β γ : Type} {R : β → γ → Prop} (ks : List κ) {bs : List β} {cs : List γ}
    (h : List.Forall₂ R bs cs) :
    List.Forall₂ (fun p q => p.1 = q.1 ∧ R p.2 q.2) (ks.zip bs) (ks.zip cs) := by
  induction h generalizing ks with
  | nil =>
    rw [List.zip_nil_right, List.zip_nil_right]
    exact .nil
  | cons hR _ ih =>
    cases ks with
    | nil => exact .nil
    | cons k ks => exact .cons ⟨rfl, hR⟩ (ih ks)

/-- Rows of pairs with the same keys in which related values are found. -/
lemma lookup_of_forall₂ {β γ : Type} {R : β → γ → Prop} {ps : List (String × β)}
    {qs : List (String × γ)} (h : List.Forall₂ (fun p q => p.1 = q.1 ∧ R p.2 q.2) ps qs)
    (l : String) : Option.Rel R (ps.lookup l) (qs.lookup l) := by
  induction h with
  | nil => exact .none
  | @cons p q ps qs hpq _ ih =>
    obtain ⟨k, v⟩ := p
    obtain ⟨k', v'⟩ := q
    obtain ⟨rfl, hR⟩ : k = k' ∧ R v v' := hpq
    rw [List.lookup_cons, List.lookup_cons]
    cases l == k with
    | true => exact .some hR
    | false => exact ih

/-- The outcomes of functions that do not lack data, given their results. -/
def ownOutcomes (fs : List SourceFunction)
    (results : List (Except (List Diagnostic) ConvertedFunction)) :
    List (Except (List Diagnostic) ConvertedFunction) :=
  fs.map (outcome [] ((fs.map (·.label)).zip results))

section Outcomes

variable {fs fs' gs : List SourceFunction}
  {rs rs' : List (Except (List Diagnostic) ConvertedFunction)}

lemma outcome_nil (done : List (String × Except (List Diagnostic) ConvertedFunction))
    (f : SourceFunction) :
    outcome [] done f = (done.reverse.lookup f.label).getD (.error []) := by
  unfold outcome
  rw [List.lookup_nil]
  dsimp only
  cases done.reverse.lookup f.label <;> rfl

/-- Functions that are alike have outcomes that are alike. -/
lemma outcomeAlike_ownOutcomes {style : ListingStyle}
    (hfs : List.Forall₂ SourceFunction.IsAlike fs fs')
    (hrs : List.Forall₂ (OutcomeAlike style) rs rs') :
    List.Forall₂ (OutcomeAlike style) (ownOutcomes fs rs) (ownOutcomes fs' rs') := by
  have hlabels : fs'.map (·.label) = fs.map (·.label) :=
    (map_eq_map_iff_forall₂.mpr (hfs.imp fun f f' h => h.label_eq.symm)).symm
  have hpairs : List.Forall₂ (fun p q => p.1 = q.1 ∧ OutcomeAlike style p.2 q.2)
      ((fs.map (·.label)).zip rs) ((fs.map (·.label)).zip rs') := forall₂_zip_left _ hrs
  rw [ownOutcomes, ownOutcomes, hlabels, List.forall₂_map_left_iff, List.forall₂_map_right_iff]
  refine hfs.imp fun f f' h => ?_
  rw [outcome_nil, outcome_nil, h.label_eq]
  have hlookup := lookup_of_forall₂ (List.forall₂_reverse_iff.mpr hpairs) f.label
  generalize ((fs.map (·.label)).zip rs).reverse.lookup f.label = x,
    ((fs.map (·.label)).zip rs').reverse.lookup f.label = y at hlookup ⊢
  cases hlookup with
  | none => exact .error _ _
  | some h => exact h

/-- Functions with other labels have no part in the outcomes. -/
lemma ownOutcomes_append (hdisjoint : ∀ f ∈ fs, ∀ g ∈ gs, f.label ≠ g.label)
    (hfs : rs.length = fs.length) (hgs : rs'.length = gs.length) :
    ownOutcomes (fs ++ gs) (rs ++ rs') = ownOutcomes fs rs ++ ownOutcomes gs rs' := by
  have hfst : ((gs.map (·.label)).zip rs').map (·.1) = gs.map (·.label) :=
    List.map_fst_zip (by rw [List.length_map, hgs])
  have hzip : ((fs ++ gs).map (·.label)).zip (rs ++ rs') =
      (fs.map (·.label)).zip rs ++ (gs.map (·.label)).zip rs' := by
    rw [List.map_append, List.zip_append (by rw [List.length_map, hfs])]
  rw [ownOutcomes, hzip, List.map_append]
  refine congrArg₂ _ (List.map_congr_left fun f hf => ?_) (List.map_congr_left fun g hg => ?_)
  · have hnone : ((gs.map (·.label)).zip rs').reverse.lookup f.label = none := by
      rw [List.lookup_eq_none_iff]
      intro p hp
      have hmem := List.mem_map_of_mem (f := (·.1)) (List.mem_reverse.mp hp)
      rw [hfst] at hmem
      obtain ⟨g, hg, heq⟩ := List.mem_map.mp hmem
      rw [bne_iff_ne, ← heq]
      exact hdisjoint f hf g hg
    rw [outcome_nil, outcome_nil, List.reverse_append, List.lookup_append, hnone]
    rfl
  · have hmem := List.mem_map_of_mem (f := (·.label)) hg
    rw [← hfst] at hmem
    obtain ⟨p, hp, heq⟩ := List.mem_map.mp hmem
    rw [outcome_nil, outcome_nil, List.reverse_append, List.lookup_append]
    cases hlookup : ((gs.map (·.label)).zip rs').reverse.lookup g.label with
    | some r => rfl
    | none =>
      have hne := List.lookup_eq_none_iff.mp hlookup p (List.mem_reverse.mpr hp)
      simp [heq] at hne

end Outcomes

/-! ## Units with all their data -/

/-- When a unit is converted whose functions do not lack data. -/
lemma convert_eq_ok_iff_of_found {o : Options} {text : String} {functions : List SourceFunction}
    {x : DataIndex} {u : ConvertedUnit} (hread : readFunctions text = .ok (functions, x))
    (hfound : (requireConstants x o.poolName functions).2 = []) :
    convert o text = .ok u ↔
      Text.isWritable u.pool.size = true ∧ o.jobs.isSome = true ∧
      (∃ results, functions.mapM (convertFunction (unitContext o x functions)) = .ok results ∧
        ownOutcomes functions results = u.functions.map .ok) ∧
      u.pool = (unitContext o x functions).pool ∧
      renderUnit o.style u.pool u.functions = .ok u.text := by
  have htodo : todo o x functions = functions := by
    rw [todo, hfound]
    exact List.filter_eq_self.mpr fun f _ => rfl
  have houtcomes : ∀ results, outcomes o x functions results = ownOutcomes functions results := by
    intro results
    rw [outcomes, hfound, htodo]
    rfl
  rw [convert_eq_ok_iff]
  constructor
  · rintro ⟨functions', x', results, hread', hwritable, hjobs, hresults, hdivide, hpool, hlisting⟩
    obtain ⟨rfl, rfl⟩ := Prod.mk.inj (Except.ok.inj (hread'.symm.trans hread))
    have houtcome : List.Forall₂ (fun f g => outcome (requireConstants x' o.poolName functions').2
        (((todo o x' functions').map (·.label)).zip results) f = .ok g) functions'
        (divide (outcomes o x' functions' results)).2 :=
      divide_eq fun f hf => (exists_outcome rfl hresults (congrArg Prod.fst hdivide) hf).2.imp
        fun g hg => ⟨hg.1, hg.1⟩
    rw [hdivide] at houtcome
    rw [htodo] at hresults
    exact ⟨hwritable, hjobs, ⟨results, hresults, (houtcomes results).symm.trans
      (map_eq_map_ok houtcome)⟩, hpool.symm, hlisting⟩
  · rintro ⟨hwritable, hjobs, ⟨results, hresults, houtcome⟩, hpool, hlisting⟩
    refine ⟨functions, x, results, hread, hwritable, hjobs, ?_, ?_, hpool.symm, hlisting⟩
    · rw [htodo]
      exact hresults
    · rw [houtcomes, houtcome, divide_map_ok]

/-! ## Units without data -/

/-- No address of the function is relative to the instruction pointer. -/
def SourceFunction.WithoutData (f : SourceFunction) : Prop :=
  ∀ p ∈ f.addresses, p.2.ripRelative = false

lemma SourceFunction.IsAlike.withoutData {f f' : SourceFunction} (h : f.IsAlike f')
    (hf : f.WithoutData) : f'.WithoutData := by
  cases h with
  | withDirectives =>
    rw [WithoutData, addresses_withDirectives]
    exact hf
  | moved h =>
    intro p hp
    have hmem := List.mem_map_of_mem (f := fun p => (p.1.unplaced, p.2)) hp
    rw [← f'.unplaced_addresses, h, f.unplaced_addresses] at hmem
    obtain ⟨q, hq, heq⟩ := List.mem_map.mp hmem
    rw [← (Prod.mk.inj heq).2]
    exact hf q hq

lemma requireAll_of_withoutData {x : DataIndex} {f : SourceFunction} {pool : Pool}
    {ps : List (Instruction × Address)} (h : ∀ p ∈ ps, p.2.ripRelative = false) :
    requireAll x f pool ps = (pool, none) := by
  induction ps with
  | nil => rfl
  | cons p ps ih =>
    obtain ⟨hp, hps⟩ := List.forall_mem_cons.mp h
    have haddress : requireAddress x f pool p = .ok pool := if_pos (by rw [hp]; rfl)
    rw [requireAll, haddress]
    exact ih hps

/-- Functions without data need no pool. -/
lemma requireConstants_of_withoutData {fs : List SourceFunction}
    (h : ∀ f ∈ fs, f.WithoutData) (x : DataIndex) (name : String) :
    requireConstants x name fs = ({ name := name }, []) := by
  rw [requireConstants_eq]
  induction fs with
  | nil => rfl
  | cons f fs ih =>
    obtain ⟨hf, hfs⟩ := List.forall_mem_cons.mp h
    rw [List.foldl_cons, requireFunction, requireAll_of_withoutData hf]
    exact ih hfs

/-- What functions without data are converted with. -/
def ownContext (o : Options) : UnitContext :=
  { options := o, helpers := Helpers.ofList o.allowedCalls o.stubPackage,
    pool := Pool.fix { name := o.poolName } }

section Units

variable {o : Options} {text : String} {functions : List SourceFunction} {x : DataIndex}
  {u : ConvertedUnit}

lemma unitContext_of_withoutData (h : ∀ f ∈ functions, f.WithoutData) :
    unitContext o x functions = ownContext o := by
  rw [unitContext, requireConstants_of_withoutData h]
  rfl

/-- When a unit without data is converted. -/
lemma convert_eq_ok_iff_of_withoutData (hread : readFunctions text = .ok (functions, x))
    (hplain : ∀ f ∈ functions, f.WithoutData) :
    convert o text = .ok u ↔
      Text.isWritable (ownContext o).pool.size = true ∧ o.jobs.isSome = true ∧
      (∃ results, functions.mapM (convertFunction (ownContext o)) = .ok results ∧
        ownOutcomes functions results = u.functions.map .ok) ∧
      u.pool = (ownContext o).pool ∧
      renderUnit o.style (ownContext o).pool u.functions = .ok u.text := by
  have hfound : (requireConstants x o.poolName functions).2 = [] := by
    rw [requireConstants_of_withoutData hplain]
  rw [convert_eq_ok_iff_of_found hread hfound, unitContext_of_withoutData hplain]
  constructor
  · rintro ⟨hwritable, hjobs, hresults, hpool, hlisting⟩
    rw [hpool] at hwritable hlisting
    exact ⟨hwritable, hjobs, hresults, hpool, hlisting⟩
  · rintro ⟨hwritable, hjobs, hresults, hpool, hlisting⟩
    rw [← hpool] at hwritable hlisting
    exact ⟨hwritable, hjobs, hresults, hpool, hlisting⟩

/-- The listing of a unit without data: the blocks of its functions behind the header. -/
lemma renderUnit_ownContext {gs : List ConvertedFunction} {listing : String} :
    renderUnit o.style (ownContext o).pool gs = .ok listing ↔
      ∃ blocks : List (List String), gs.map (renderFunction o.style) = blocks.map .ok ∧
        listing = joinLines (listingHeader ++ blocks.flatten) := by
  have hpool : renderPool (ownContext o).pool = .ok [] := rfl
  have hblocks : ∀ blocks, gs.mapM (renderFunction o.style) = .ok blocks ↔
      gs.map (renderFunction o.style) = blocks.map .ok := fun blocks => by
    rw [mapM_eq_ok, map_eq_map_iff_forall₂]
  rw [renderUnit, hpool]
  constructor
  · intro h
    obtain ⟨poolText, hnone, h⟩ := bind_eq_ok.mp h
    obtain rfl := Except.ok.inj hnone
    obtain ⟨blocks, hrows, h⟩ := bind_eq_ok.mp h
    exact ⟨blocks, (hblocks blocks).mp hrows, (pure_eq_ok.mp h).symm⟩
  · rintro ⟨blocks, hrows, rfl⟩
    exact bind_eq_ok.mpr ⟨[], rfl, bind_eq_ok.mpr ⟨blocks, (hblocks blocks).mpr hrows, rfl⟩⟩

end Units

/-- Lines behind others. -/
lemma joinLines_append {rows rows' : List String} (h : rows ≠ []) (h' : rows' ≠ []) :
    joinLines (rows ++ rows') = joinLines rows ++ joinLines rows' := by
  refine String.toList_injective ?_
  rw [String.toList_append, toList_joinLines (List.append_ne_nil_of_left_ne_nil h _),
    toList_joinLines h, toList_joinLines h', List.flatMap_append]

/-- The block of a function is not empty. -/
lemma flatten_ne_nil {style : ListingStyle} {gs : List ConvertedFunction}
    {blocks : List (List String)} (hblocks : gs.map (renderFunction style) = blocks.map .ok)
    (h : gs ≠ []) : blocks.flatten ≠ [] := by
  obtain ⟨g, gs, rfl⟩ := List.exists_cons_of_ne_nil h
  rw [List.map_cons] at hblocks
  obtain ⟨block, blocks, rfl, hblock, -⟩ := List.map_eq_cons_iff.mp hblocks.symm
  obtain ⟨lines, -, rfl⟩ := map_eq_ok.mp hblock.symm
  exact List.cons_ne_nil _ _

/-! ## One unit behind another -/

/-- Conversions that stand in a row of outcomes. -/
lemma exists_of_outcomeAlike {style : ListingStyle} {gs : List ConvertedFunction}
    {outs : List (Except (List Diagnostic) ConvertedFunction)}
    (h : List.Forall₂ (OutcomeAlike style) (gs.map .ok) outs) :
    ∃ gs', outs = gs'.map .ok ∧ List.Forall₂ (ConvertedFunction.IsAlike style) gs gs' := by
  induction gs generalizing outs with
  | nil =>
    cases h
    exact ⟨[], rfl, .nil⟩
  | cons g gs ih =>
    cases h with
    | cons hg hgs =>
      obtain ⟨gs', rfl, hgs'⟩ := ih hgs
      cases hg with
      | ok hg => exact ⟨_ :: gs', rfl, .cons hg hgs'⟩

/-- Functions that are alike have conversions that are alike. -/
lemma exists_conversions {c : UnitContext} {style : ListingStyle}
    (hstyle : style.directives = false) {fs fs' : List SourceFunction}
    (hfs : List.Forall₂ SourceFunction.IsAlike fs fs')
    {results : List (Except (List Diagnostic) ConvertedFunction)} {gs : List ConvertedFunction}
    (hresults : fs.mapM (convertFunction c) = .ok results)
    (hgs : ownOutcomes fs results = gs.map .ok) :
    ∃ results' gs', fs'.mapM (convertFunction c) = .ok results' ∧
      ownOutcomes fs' results' = gs'.map .ok ∧
      List.Forall₂ (ConvertedFunction.IsAlike style) gs gs' := by
  have hstep : ∀ (f' f : SourceFunction) (r : Except (List Diagnostic) ConvertedFunction),
      f.IsAlike f' → convertFunction c f = .ok r →
      ∃ r', convertFunction c f' = .ok r' ∧ OutcomeAlike style r r' :=
    fun f' f r hf hr => (exists_outcomeAlike hstyle hf hr).imp fun r' h => h.symm
  obtain ⟨results', hresults', halike⟩ :=
    exists_forall₂_of_forall₂ hstep hfs.flip (mapM_eq_ok.mp hresults)
  have houtcomes := outcomeAlike_ownOutcomes hfs halike.flip
  rw [hgs] at houtcomes
  obtain ⟨gs', hgs', hconversions⟩ := exists_of_outcomeAlike houtcomes
  exact ⟨results', gs', mapM_eq_ok.mpr hresults', hgs', hconversions⟩

section Append

variable {o : Options} {a b text : String} {records rest : List Record} {d : Directive} {l : Label}
  {fs fs' gs gs' : List SourceFunction} {x y z : DataIndex} {u v : ConvertedUnit}

/-- Two units, of which the second one begins with a switch to the section of instructions and a
function label and does not go back, have together the functions of the one and of the other. -/
lemma exists_readFunctions_append (ha : Source.readUnit a = .ok records)
    (hb : Source.readUnit b = .ok (.directive d :: .label l :: rest)) (hd : d.name = ".text")
    (hl : l.isFunction = true) (hback : ∀ r ∈ rest, r.looksBack = false)
    (hu : readFunctions a = .ok (fs, x)) (hv : readFunctions b = .ok (gs, y)) :
    ∃ fs' gs' z, readFunctions (a ++ "\n" ++ b) = .ok (fs' ++ gs', z) ∧
      List.Forall₂ SourceFunction.IsAlike fs fs' ∧
      List.Forall₂ SourceFunction.IsAlike gs gs' := by
  obtain ⟨_, ha', hfs, hx⟩ := readFunctions_eq_ok.mp hu
  obtain rfl := Except.ok.inj (ha.symm.trans ha')
  obtain ⟨_, hb', hgs, hy⟩ := readFunctions_eq_ok.mp hv
  obtain rfl := Except.ok.inj (hb.symm.trans hb')
  obtain ⟨records', hread, hmoved⟩ := exists_readUnit_append ha hb hd
    (List.forall_mem_cons.mpr ⟨rfl, hback⟩)
  obtain ⟨fs', gs', hfunctions, hfs', hgs'⟩ := exists_extractFunctions_append hfs hgs hl hmoved
  obtain ⟨z, hz⟩ := DataIndex.exists_ofRecords_append hx hy (by rw [hd]; decide) hmoved
  refine ⟨fs', gs', z, readFunctions_eq_ok.mpr ⟨_, hread, hfunctions, hz⟩, hfs'.imp ?_,
    (map_eq_map_iff_forall₂.mp hgs').flip.imp fun _ _ h => .moved h⟩
  rintro f f' ⟨ds, hds, rfl⟩
  refine .withDirectives fun d' hd' => ?_
  rw [hds d' hd', hd]
  decide

/-- A unit without addresses relative to the instruction pointer has functions without data. -/
lemma withoutData_of_readFunctions (hread : Source.readUnit text = .ok records)
    (hfs : readFunctions text = .ok (fs, x))
    (hrip : ∀ r ∈ records, ∀ i ∈ r.instruction?, ∀ a ∈ i.addresses, a.ripRelative = false) :
    ∀ f ∈ fs, f.WithoutData := by
  obtain ⟨_, hread', hfunctions, -⟩ := readFunctions_eq_ok.mp hfs
  obtain rfl := Except.ok.inj (hread.symm.trans hread')
  intro f hf p hp
  obtain ⟨hi, hp⟩ := SourceFunction.mem_addresses.mp hp
  exact hrip _ (mem_of_extractFunctions hfunctions hf hi) _ rfl _ hp

lemma withoutData_of_isAlike (h : List.Forall₂ SourceFunction.IsAlike fs fs')
    (hfs : ∀ f ∈ fs, f.WithoutData) : ∀ f ∈ fs', f.WithoutData := by
  intro f hf
  obtain ⟨f₀, hf₀, halike⟩ := exists_of_mem_right h hf
  exact halike.withoutData (hfs f₀ hf₀)

/-- The outcomes of the functions of two units with no label in common, where the functions stand
together. -/
lemma exists_outcomes_append {c : UnitContext} {style : ListingStyle}
    (hstyle : style.directives = false) (hfs : List.Forall₂ SourceFunction.IsAlike fs fs')
    (hgs : List.Forall₂ SourceFunction.IsAlike gs gs')
    (hdisjoint : ∀ f ∈ fs, ∀ g ∈ gs, f.label ≠ g.label)
    {rs rs' : List (Except (List Diagnostic) ConvertedFunction)} {us vs : List ConvertedFunction}
    (hrs : fs.mapM (convertFunction c) = .ok rs) (hus : ownOutcomes fs rs = us.map .ok)
    (hrs' : gs.mapM (convertFunction c) = .ok rs') (hvs : ownOutcomes gs rs' = vs.map .ok) :
    ∃ results ws, (fs' ++ gs').mapM (convertFunction c) = .ok results ∧
      ownOutcomes (fs' ++ gs') results = ws.map .ok ∧
      List.Forall₂ (ConvertedFunction.IsAlike style) (us ++ vs) ws := by
  obtain ⟨rs₁, us', hrs₁, hus', hleft⟩ := exists_conversions hstyle hfs hrs hus
  obtain ⟨rs₂, vs', hrs₂, hvs', hright⟩ := exists_conversions hstyle hgs hrs' hvs
  have hfirst := mapM_eq_ok.mp hrs₁
  have hsecond := mapM_eq_ok.mp hrs₂
  have hdisjoint' : ∀ f ∈ fs', ∀ g ∈ gs', f.label ≠ g.label := by
    intro f hf g hg
    obtain ⟨f₀, hf₀, hf⟩ := exists_of_mem_right hfs hf
    obtain ⟨g₀, hg₀, hg⟩ := exists_of_mem_right hgs hg
    rw [hf.label_eq, hg.label_eq]
    exact hdisjoint f₀ hf₀ g₀ hg₀
  refine ⟨rs₁ ++ rs₂, us' ++ vs', mapM_eq_ok.mpr (List.rel_append hfirst hsecond), ?_,
    List.rel_append hleft hright⟩
  rw [ownOutcomes_append hdisjoint' hfirst.length_eq.symm hsecond.length_eq.symm, hus', hvs',
    List.map_append]

/-- The conversion of two units without data and with no label in common, where their functions
stand together. -/
lemma exists_convert_append (hstyle : o.style.directives = false)
    (hreadA : readFunctions a = .ok (fs, x)) (hreadB : readFunctions b = .ok (gs, y))
    (hread : readFunctions text = .ok (fs' ++ gs', z))
    (hfs : List.Forall₂ SourceFunction.IsAlike fs fs')
    (hgs : List.Forall₂ SourceFunction.IsAlike gs gs')
    (hplainA : ∀ f ∈ fs, f.WithoutData) (hplainB : ∀ g ∈ gs, g.WithoutData)
    (hdisjoint : ∀ f ∈ fs, ∀ g ∈ gs, f.label ≠ g.label) (hne : gs ≠ [])
    (hu : convert o a = .ok u) (hv : convert o b = .ok v) :
    ∃ w tail, convert o text = .ok w ∧
      List.Forall₂ (ConvertedFunction.IsAlike o.style) (u.functions ++ v.functions) w.functions ∧
      v.text = joinLines listingHeader ++ tail ∧ w.text = u.text ++ tail := by
  obtain ⟨hwritable, hjobs, ⟨rs, hrs, hus⟩, -, hlistingA⟩ :=
    (convert_eq_ok_iff_of_withoutData hreadA hplainA).mp hu
  obtain ⟨-, -, ⟨rs', hrs', hvs⟩, -, hlistingB⟩ :=
    (convert_eq_ok_iff_of_withoutData hreadB hplainB).mp hv
  obtain ⟨results, ws, hresults, hws, halike⟩ :=
    exists_outcomes_append hstyle hfs hgs hdisjoint hrs hus hrs' hvs
  obtain ⟨blocksA, hblocksA, htextA⟩ := renderUnit_ownContext.mp hlistingA
  obtain ⟨blocksB, hblocksB, htextB⟩ := renderUnit_ownContext.mp hlistingB
  have hblocks : ws.map (renderFunction o.style) = (blocksA ++ blocksB).map .ok := by
    rw [List.map_append, ← hblocksA, ← hblocksB, ← List.map_append]
    exact (map_eq_map_iff_forall₂.mpr (halike.imp fun g g' h => h.block.symm)).symm
  have hfunctions : v.functions ≠ [] := by
    rintro hnil
    rw [hnil, ownOutcomes, List.map_nil, List.map_eq_nil_iff] at hvs
    exact hne hvs
  have hflatten := flatten_ne_nil hblocksB hfunctions
  have hplain : ∀ f ∈ fs' ++ gs', f.WithoutData :=
    List.forall_mem_append.mpr
      ⟨withoutData_of_isAlike hfs hplainA, withoutData_of_isAlike hgs hplainB⟩
  have hfront : listingHeader ++ blocksA.flatten ≠ [] :=
    List.append_ne_nil_of_left_ne_nil (by decide) _
  refine ⟨⟨ws, (ownContext o).pool, u.text ++ joinLines blocksB.flatten⟩, joinLines blocksB.flatten,
    (convert_eq_ok_iff_of_withoutData hread hplain).mpr ⟨hwritable, hjobs, ⟨results, hresults, hws⟩,
      rfl, renderUnit_ownContext.mpr ⟨_, hblocks, ?_⟩⟩, halike, ?_, rfl⟩
  · rw [htextA, List.flatten_append, ← List.append_assoc, joinLines_append hfront hflatten]
  · rw [htextB, joinLines_append (by decide) hflatten]

/-- The functions of a unit have its function labels. -/
lemma labels_of_readFunctions (hread : Source.readUnit text = .ok records)
    (hfs : readFunctions text = .ok (fs, x)) :
    fs.map (·.label) = (functionLabels records).map (·.name) := by
  obtain ⟨_, hread', hfunctions, -⟩ := readFunctions_eq_ok.mp hfs
  obtain rfl := Except.ok.inj (hread.symm.trans hread')
  exact labels_of_extractFunctions hfunctions

/-- Units without a function label in common have no functions of one label. -/
lemma label_ne_of_functionLabels (hfs : fs.map (·.label) = (functionLabels records).map (·.name))
    (hgs : gs.map (·.label) = (functionLabels rest).map (·.name))
    (hdisjoint : ∀ m ∈ functionLabels records, ∀ n ∈ functionLabels rest, m.name ≠ n.name) :
    ∀ f ∈ fs, ∀ g ∈ gs, f.label ≠ g.label := by
  intro f hf g hg
  have hf := List.mem_map_of_mem (f := (·.label)) hf
  have hg := List.mem_map_of_mem (f := (·.label)) hg
  rw [hfs] at hf
  rw [hgs] at hg
  obtain ⟨m, hm, hmname⟩ := List.mem_map.mp hf
  obtain ⟨n, hn, hnname⟩ := List.mem_map.mp hg
  rw [← hmname, ← hnname]
  exact hdisjoint m hm n hn

/-- A unit behind which another one stands, without addresses relative to the instruction pointer
and without a function label in common, is converted if both are, provided that the other one begins
with a switch to the section of instructions and a function label and does not go back to sections
of before. What is told of its functions is that of the one and then of the other, and its text is
that of the one and then that of the other without the header. -/
theorem convert_append (hdirectives : o.keepDirectives = false)
    (ha : Source.readUnit a = .ok records)
    (hb : Source.readUnit b = .ok (.directive d :: .label l :: rest)) (hd : d.name = ".text")
    (hl : l.isFunction = true) (hback : ∀ r ∈ rest, r.looksBack = false)
    (hripA : ∀ r ∈ records, ∀ i ∈ r.instruction?, ∀ p ∈ i.addresses, p.ripRelative = false)
    (hripB : ∀ r ∈ rest, ∀ i ∈ r.instruction?, ∀ p ∈ i.addresses, p.ripRelative = false)
    (hdisjoint : ∀ m ∈ functionLabels records, ∀ n ∈ functionLabels (.label l :: rest),
      m.name ≠ n.name)
    (hu : convert o a = .ok u) (hv : convert o b = .ok v) :
    ∃ w tail, convert o (a ++ "\n" ++ b) = .ok w ∧
      w.functions.map (fun g => (g.info, g.signature)) =
        (u.functions ++ v.functions).map (fun g => (g.info, g.signature)) ∧
      v.text = joinLines listingHeader ++ tail ∧ w.text = u.text ++ tail := by
  obtain ⟨fs, x, -, hreadA, -⟩ := convert_eq_ok_iff.mp hu
  obtain ⟨gs, y, -, hreadB, -⟩ := convert_eq_ok_iff.mp hv
  obtain ⟨fs', gs', z, hread, hfs, hgs⟩ :=
    exists_readFunctions_append ha hb hd hl hback hreadA hreadB
  have hlabelsA := labels_of_readFunctions ha hreadA
  -- The switch in front is no function label.
  have hlabelsB := labels_of_readFunctions hb hreadB
  change gs.map (·.label) = (functionLabels (.label l :: rest)).map (·.name) at hlabelsB
  have hripB' : ∀ r ∈ Record.directive d :: .label l :: rest, ∀ i ∈ r.instruction?,
      ∀ p ∈ i.addresses, p.ripRelative = false :=
    List.forall_mem_cons.mpr ⟨by rintro i ⟨⟩, List.forall_mem_cons.mpr ⟨by rintro i ⟨⟩, hripB⟩⟩
  have hne : gs ≠ [] := by
    rintro rfl
    have hfirst : functionLabels (.label l :: rest) = l :: functionLabels rest := by
      simp [functionLabels, Record.label?, hl]
    rw [hfirst] at hlabelsB
    cases hlabelsB
  obtain ⟨w, tail, hw, halike, htail, htext⟩ := exists_convert_append hdirectives hreadA hreadB
    hread hfs hgs (withoutData_of_readFunctions ha hreadA hripA)
    (withoutData_of_readFunctions hb hreadB hripB')
    (label_ne_of_functionLabels hlabelsA hlabelsB hdisjoint) hne hu hv
  refine ⟨w, tail, hw, ?_, htail, htext⟩
  exact (map_eq_map_iff_forall₂.mpr (halike.imp fun g g' h =>
    Prod.ext h.info.symm h.signature.symm)).symm

/-- A unit that ends within its function, and one that begins with comments and a switch. -/
theorem convert_append_of_two :
    let a := String.join ["f: push rbp\n", "mov rbp, rsp\n", "mov rax, rdi\n", "leave\n", "ret"]
    let b := String.join [
      "# more\n", ".text # of this\n", "\n", "g: push rbp\n", "mov rbp, rsp\n", "leave\n", "ret\n",
      ".section .rodata\n", "t: .quad 1\n"]
    ∃ u v w tail, convert {} a = .ok u ∧ convert {} b = .ok v ∧
      convert {} (a ++ "\n" ++ b) = .ok w ∧ w.functions.map (·.symbol) = ["_f", "_g"] ∧
      v.text = joinLines listingHeader ++ tail ∧ w.text = u.text ++ tail := by
  intro a b
  obtain ⟨records, ha, hripA, hlabelsA⟩ : ∃ records, Source.readUnit a = .ok records ∧
      (∀ r ∈ records, ∀ i ∈ r.instruction?, ∀ p ∈ i.addresses, p.ripRelative = false) ∧
      ∀ m ∈ functionLabels records, m.name = "f" :=
    exists_ok_of_any (by decide +kernel)
  let d : Directive := { name := ".text", line := some 2, sect := some ".text" }
  let l : Label := { name := "g", line := some 4, sect := some ".text" }
  obtain ⟨recordsB, hb, hfirst, hback, hripB, hlabelsB⟩ : ∃ records,
      Source.readUnit b = .ok records ∧ records.take 2 = [.directive d, .label l] ∧
      (∀ r ∈ records.drop 2, r.looksBack = false) ∧
      (∀ r ∈ records.drop 2, ∀ i ∈ r.instruction?, ∀ p ∈ i.addresses, p.ripRelative = false) ∧
      ∀ n ∈ functionLabels (.label l :: records.drop 2), n.name = "g" :=
    exists_ok_of_any (by decide +kernel)
  rw [← List.take_append_drop 2 recordsB, hfirst] at hb
  obtain ⟨u, hu, hsymbolU⟩ : ∃ u, convert {} a = .ok u ∧
      u.functions.map (·.info.symbol) = ["_f"] :=
    exists_ok_of_any (by decide +kernel)
  obtain ⟨v, hv, hsymbolV⟩ : ∃ v, convert {} b = .ok v ∧
      v.functions.map (·.info.symbol) = ["_g"] :=
    exists_ok_of_any (by decide +kernel)
  obtain ⟨w, tail, hw, hinfo, htail, htext⟩ := convert_append rfl ha hb rfl (by decide) hback hripA
    hripB (fun m hm n hn => by rw [hlabelsA m hm, hlabelsB n hn]; decide) hu hv
  refine ⟨u, v, w, tail, hu, hv, hw, ?_, htail, htext⟩
  have hsymbols := congrArg (List.map (·.1.symbol)) hinfo
  rw [List.map_map, List.map_map, List.map_append] at hsymbols
  change w.functions.map (·.info.symbol) = u.functions.map (·.info.symbol) ++
    v.functions.map (·.info.symbol) at hsymbols
  rw [hsymbolU, hsymbolV] at hsymbols
  exact hsymbols

end Append

end AsmBridge
