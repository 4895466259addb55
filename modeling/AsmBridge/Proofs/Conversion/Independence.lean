import AsmBridge.Proofs.Conversion.Reports
import AsmBridge.Proofs.Encoding.Displacement
import AsmBridge.Proofs.Function.Alone
import AsmBridge.Proofs.Pool.Bytes

/-!
# Functions are converted independently of each other

What a function reports in its unit it also reports where it is left over by itself
(`defects_eq_of_isAlone`), although there the pool of the data is another one and the function may
have other directives at its end. A unit is thus converted if all its functions are by themselves,
and else fails with the defects that they have by themselves, in order (`convert_isIndependent`).

The two pools change the displacements of operands, but no defect as long as displacements fit their
field: hence pools are to be small, and little is to be added to symbols. A function may also be
given up by itself and not in its unit, where another function may have brought a datum of the name
it asks for into the pool. So the statements are about conversions that are not given up.
-/

namespace AsmBridge

/-! ## Directives at the end of a function -/

section Directives

variable (f : SourceFunction) (ds : List Directive)

lemma body_withDirectives : (f.withDirectives ds).body = f.body ++ ds.map .directive := rfl

@[simp] lemma instructions_withDirectives :
    (f.withDirectives ds).instructions = f.instructions := by
  simp [SourceFunction.instructions, SourceFunction.withDirectives, BodyItem.instruction?]

@[simp] lemma labels_withDirectives : (f.withDirectives ds).labels = f.labels := by
  simp [SourceFunction.labels, SourceFunction.withDirectives, BodyItem.label?]

@[simp] lemma addresses_withDirectives : (f.withDirectives ds).addresses = f.addresses := by
  rw [SourceFunction.addresses, instructions_withDirectives, SourceFunction.addresses]

@[simp] lemma references_withDirectives : (f.withDirectives ds).references = f.references := by
  rw [SourceFunction.references, instructions_withDirectives, SourceFunction.references]

lemma lacks_withDirectives (x : DataIndex) : x.lacks (f.withDirectives ds) = x.lacks f := by
  rw [DataIndex.lacks, addresses_withDirectives]
  rfl

lemma problems_withDirectives : problems (f.withDirectives ds) = problems f := by
  rw [problems, instructions_withDirectives]
  rfl

lemma planFunction_withDirectives (c : UnitContext) :
    planFunction c (f.withDirectives ds) = planFunction c f := by
  have hsignature : (f.withDirectives ds).resolveSignature = f.resolveSignature := by
    funext symbol prototypes
    unfold SourceFunction.resolveSignature SourceFunction.discoverSignature
      SourceFunction.stackArguments SourceFunction.firstAccesses
    rw [addresses_withDirectives, instructions_withDirectives]
    rfl
  have hreserve : c.helpers.reserve (f.withDirectives ds) = c.helpers.reserve f := by
    unfold Helpers.reserve
    rw [instructions_withDirectives]
    rfl
  have hframe : (f.withDirectives ds).planFrame = f.planFrame := by
    funext slots callReserve
    unfold SourceFunction.planFrame SourceFunction.stackAlignment SourceFunction.needsFrame
    rw [addresses_withDirectives, instructions_withDirectives]
    rfl
  have hregister : (f.withDirectives ds).poolRegister = f.poolRegister := by
    unfold SourceFunction.poolRegister
    rw [instructions_withDirectives]
    rfl
  unfold planFunction
  rw [hsignature, hreserve, hframe, hregister, references_withDirectives]
  rfl

lemma convertRecord_withDirectives (c : UnitContext) :
    convertRecord c (f.withDirectives ds) = convertRecord c f := by
  have hjump : Helpers.jumpTarget (f.withDirectives ds) = Helpers.jumpTarget f := by
    funext i
    unfold Helpers.jumpTarget
    rw [labels_withDirectives]
    rfl
  funext r exit b
  unfold convertRecord convertInstruction
  rw [hjump]
  rfl

lemma recordDefect?_withDirectives (c : UnitContext) (r : Option Register) :
    recordDefect? c (f.withDirectives ds) r = recordDefect? c f r := by
  funext b
  rw [recordDefect?, convertRecord_withDirectives]
  rfl

end Directives

/-! ## Pools -/

/-- The pool is small: its slots have alignments, and it ends below 2^30 bytes. -/
structure Pool.IsSmall (p : Pool) : Prop where
  align : ∀ s ∈ p.slots, 0 < s.align
  size : p.size < 2 ^ 30

/-- Little is added to the symbols of addresses relative to the instruction pointer. -/
def Instruction.AddsLittle (i : Instruction) : Prop :=
  ∀ a ∈ i.addresses, a.ripRelative = true → a.disp.natAbs < 2 ^ 30

instance (i : Instruction) : Decidable i.AddsLittle :=
  inferInstanceAs (Decidable (∀ a ∈ i.addresses, a.ripRelative = true → a.disp.natAbs < 2 ^ 30))

section Pools

variable {c c' : UnitContext} {f : SourceFunction} {r : Option Register}

/-- What is little behind the offset of a symbol in a small pool fits a displacement. -/
lemma Pool.IsSmall.fitsSigned_offset {p : Pool} (hp : p.IsSmall) {symbol : Option String} {n : ℕ}
    (hn : p.offset? symbol = some n) {d : ℤ} (hd : d.natAbs < 2 ^ 30) :
    fitsSigned 32 (n + d) = true := by
  have hle := p.offset_le_size hp.align hn
  have hsize := hp.size
  rw [fitsSigned, Bool.and_eq_true, decide_eq_true_eq, decide_eq_true_eq]
  omega

/-- Operands that are moved to two small pools are alike. -/
lemma alike_of_moved {p p' : Pool} (hp : p.IsSmall) (hp' : p'.IsSmall)
    {ops ops₁ ops₂ : List Operand}
    (hlittle : ∀ o ∈ ops, ∀ a ∈ o.address?, a.ripRelative = true → a.disp.natAbs < 2 ^ 30)
    (h₁ : List.Forall₂ (Operand.Moved p r) ops ops₁)
    (h₂ : List.Forall₂ (Operand.Moved p' r) ops ops₂) : List.Forall₂ Operand.Alike ops₁ ops₂ := by
  induction h₁ generalizing ops₂ with
  | nil =>
    cases h₂
    exact .nil
  | @cons o o₁ ops ops₁ ho₁ _ ih =>
    obtain ⟨hfirst, hrest⟩ := List.forall_mem_cons.mp hlittle
    cases h₂ with
    | cons ho₂ h₂ =>
      refine .cons ?_ (ih hrest h₂)
      cases ho₁ with
      | @datum a q symbol n hrip hq hsymbol hn =>
        cases ho₂ with
        | @datum _ q' symbol' n' _ hq' _ hn' =>
          obtain rfl := Option.some.inj (hq.symm.trans hq')
          exact .rebased q a.bits (hp.fitsSigned_offset hn (hfirst a rfl hrip))
            (hp'.fitsSigned_offset hn' (hfirst a rfl hrip))
        | other h =>
          rw [h a rfl] at hrip
          cases hrip
      | other h =>
        cases ho₂ with
        | datum hrip =>
          rw [h _ rfl] at hrip
          cases hrip
        | other => exact .same _

/-- Contexts that differ in their pools, which are small. -/
structure UnitContext.Agrees (c c' : UnitContext) : Prop where
  symbol : c.options.symbol = c'.options.symbol
  prototypes : c.options.prototypes = c'.options.prototypes
  helpers : c.helpers = c'.helpers
  left : c.pool.IsSmall
  right : c'.pool.IsSmall

/-- An instruction that has a result with two pools has the same defect with both or with none. -/
lemma endAlike_convertCode (hagrees : c.Agrees c') {i : Instruction} (hlittle : i.AddsLittle)
    {res res' : ItemsOrDefect} (h : convertCode c f r i = .ok res)
    (h' : convertCode c' f r i = .ok res') : EndAlike res res' := by
  rw [convertCode_eq] at h h'
  obtain ⟨ops, hops, h⟩ := bind_eq_ok.mp h
  obtain ⟨ops', hops', h'⟩ := bind_eq_ok.mp h'
  have hlittle' : ∀ o ∈ i.operands, ∀ a ∈ o.address?, a.ripRelative = true →
      a.disp.natAbs < 2 ^ 30 := fun o ho a ha => hlittle a (List.mem_filterMap.mpr ⟨o, ho, ha⟩)
  have halike : List.Forall₂ Operand.Alike ops ops' := by
    cases r with
    | none =>
      obtain rfl := Except.ok.inj hops
      obtain rfl := Except.ok.inj hops'
      exact List.forall₂_same.mpr fun o _ => .same o
    | some q =>
      have hmoved := fun {p : Pool} {ops} (hops : moveOperands p (some q) i.operands = .ok ops) =>
        moved_of_moveOperands (by simp) hops
      exact alike_of_moved hagrees.left hagrees.right hlittle' (hmoved hops) (hmoved hops')
  -- The pools decide on displacements only, and these on nothing but the bytes.
  unfold encodeItems at h h'
  rcases (encode_of_alike halike i.mnemonic i.mark).ok_or_error with
    ⟨bytes, bytes', hx, hy⟩ | ⟨e, hx, hy⟩
  · rw [hx] at h
    rw [hy] at h'
    rw [← Except.ok.inj h, ← Except.ok.inj h']
    rfl
  · rw [hx] at h
    rw [hy] at h'
    obtain rfl := Except.ok.inj (h.symm.trans h')
    rfl

/-- An instruction that has a result with two pools has the same defect with both or with none. -/
lemma endAlike_convertInstruction (hagrees : c.Agrees c') {i : Instruction}
    (hlittle : i.AddsLittle)
    {res res' : ItemsOrDefect} (h : convertInstruction c f r i = .ok res)
    (h' : convertInstruction c' f r i = .ok res') : EndAlike res res' := by
  unfold convertInstruction at h h'
  cases hname : i.jumpName? with
  | some name =>
    rw [hname] at h h'
    obtain rfl := Except.ok.inj (h.symm.trans h')
    rfl
  | none =>
    simp only [hname] at h h'
    split_ifs at h h'
    · have h := mapError_eq_ok.mp h
      have h' := mapError_eq_ok.mp h'
      rw [convertCall] at h h'
      rw [← hagrees.helpers] at h'
      cases hcall : c.helpers.callLine f i with
      | error d =>
        rw [hcall] at h h'
        obtain rfl := Except.ok.inj (h.symm.trans h')
        rfl
      | ok call =>
        rw [hcall] at h h'
        obtain ⟨anchor, -, h⟩ := bind_eq_ok.mp h
        obtain ⟨anchor', -, h'⟩ := bind_eq_ok.mp h'
        rw [← pure_eq_ok.mp h, ← pure_eq_ok.mp h']
        rfl
    · obtain rfl := Except.ok.inj (h.symm.trans h')
      rfl
    · exact endAlike_convertCode hagrees hlittle h h'

/-- A record that has a result with two pools has the same defect with both or with none. -/
lemma recordDefect?_of_agrees (hagrees : c.Agrees c') {b : BodyItem}
    (hlittle : ∀ i ∈ b.instruction?, i.AddsLittle)
    {res res' : ItemsOrDefect} (h : convertRecord c f r [] b = .ok res)
    (h' : convertRecord c' f r [] b = .ok res') :
    recordDefect? c f r b = recordDefect? c' f r b := by
  have halike : EndAlike res res' := by
    cases b with
    | instruction i => exact endAlike_convertInstruction hagrees (hlittle i rfl) h h'
    | _ =>
      obtain rfl := Except.ok.inj (h.symm.trans h')
      rfl
  rw [recordDefect?, recordDefect?, h, h']
  rcases halike.ok_or_error with ⟨items, items', rfl, rfl⟩ | ⟨d, rfl, rfl⟩ <;> rfl

/-- A function that has a result in two contexts reports the same in both, also with plain
directives at its end. -/
lemma reported_of_agrees (hagrees : c.Agrees c') (hlittle : ∀ i ∈ f.instructions, i.AddsLittle)
    {ds : List Directive} (hds : ∀ d ∈ ds, Directive.isDataName d.name = false)
    {result result' : Except (List Diagnostic) ConvertedFunction}
    (h : convertFunction c f = .ok result)
    (h' : convertFunction c' (f.withDirectives ds) = .ok result') :
    reported result = reported result' := by
  have hplan : planFunction c' f = planFunction c f := by
    unfold planFunction
    rw [hagrees.symbol, hagrees.prototypes, hagrees.helpers]
  have hplain : ∀ r, (ds.map BodyItem.directive).filterMap (recordDefect? c' f r) = [] := by
    intro r
    rw [List.filterMap_eq_nil_iff, List.forall_mem_map]
    intro d hd
    rw [recordDefect?, convertRecord, hds d hd]
    rfl
  rw [reported_eq h, reported_eq h', reportOf, reportOf, problems_withDirectives,
    planFunction_withDirectives, hplan]
  split_ifs with hproblems
  · rfl
  · rw [not_not] at hproblems
    cases hp : planFunction c f with
    | error e => cases e <;> rfl
    | ok p =>
      have hp' : planFunction c' (f.withDirectives ds) = .ok p := by
        rw [planFunction_withDirectives, hplan, hp]
      obtain ⟨hall, -⟩ := convertRecord_of_convertFunction h hproblems hp
      obtain ⟨hall', -⟩ := convertRecord_of_convertFunction h'
        ((problems_withDirectives f ds).trans hproblems) hp'
      simp only [convertRecord_withDirectives] at hall'
      simp only [recordDefect?_withDirectives, body_withDirectives, List.filterMap_append, hplain,
        List.append_nil]
      refine List.filterMap_congr fun b hb => ?_
      obtain ⟨res, hres⟩ := hall b hb
      obtain ⟨res', hres'⟩ := hall' b (List.mem_append_left _ hb)
      refine recordDefect?_of_agrees hagrees (fun i hi => ?_) hres hres'
      exact hlittle i (List.mem_filterMap.mpr ⟨b, hb, hi⟩)

end Pools

/-! ## Units -/

/-- The unit has a small pool, and its conversion is not given up. -/
structure IsRegular (o : Options) (text : String) : Prop where
  size : ∀ functions x, readFunctions text = .ok (functions, x) →
    (unitContext o x functions).pool.size < 2 ^ 30
  noFault : ∀ fault, convert o text ≠ .error (.fault fault)

/-- A unit is regular if it passes the tests for it. -/
lemma isRegular_of_isAnswer {o : Options} {text : String}
    {r : List SourceFunction × DataIndex} (hread : readFunctions text = .ok r)
    (hsize : (unitContext o r.2 r.1).pool.size < 2 ^ 30)
    (hanswer : isAnswer (convert o text) = true) : IsRegular o text where
  size functions x hread' := by
    obtain rfl := Except.ok.inj (hread.symm.trans hread')
    exact hsize
  noFault := ne_fault_of_isAnswer hanswer

section Units

variable {o : Options} {text : String} {records : List Record} {functions : List SourceFunction}
  {x : DataIndex}

/-- The pool of a regular unit is small. -/
lemma IsRegular.isSmall (h : IsRegular o text) (hread : readFunctions text = .ok (functions, x)) :
    (unitContext o x functions).pool.IsSmall :=
  ⟨fun s hs => (requireConstants_isFilled s hs).1, h.size functions x hread⟩

/-- A function has in its unit the defects that it has where it is left over by itself, for any
number of jobs. -/
lemma defects_eq_of_isAlone {jobs : Option ℤ} {f : SourceFunction} {single : String}
    {records' : List Record} (hread : Source.readUnit text = .ok records)
    (hfunctions : extractFunctions records = .ok functions)
    (hx : DataIndex.ofRecords records = .ok x) (hnodup : (functions.map (·.label)).Nodup)
    (h : IsRegular { o with jobs := jobs } text) (hf : f ∈ functions)
    (hlittle : ∀ i ∈ f.instructions, i.AddsLittle)
    (hread' : Source.readUnit single = .ok records') (halone : IsAlone f.label records records')
    (h' : IsRegular o single) :
    (unitContext { o with jobs := jobs } x functions).defects x f =
      defectsOf (convert o single) := by
  have hunit := readFunctions_eq_ok.mpr ⟨records, hread, hfunctions, hx⟩
  obtain ⟨ds, hds, hfunctions', hx'⟩ :=
    readAlone (readUnit_isSectioned hread) hfunctions hx hnodup hf halone
  have hsingle := readFunctions_eq_ok.mpr ⟨records', hread', hfunctions', hx'⟩
  have hagrees : (unitContext { o with jobs := jobs } x functions).Agrees
      (unitContext o x [f.withDirectives ds]) :=
    ⟨rfl, rfl, rfl, h.isSmall hunit, h'.isSmall hsingle⟩
  have hnodup' : ([f.withDirectives ds].map (·.label)).Nodup := List.nodup_singleton _
  rw [defectsOf_convert hsingle hnodup' h'.noFault, List.flatMap_singleton, UnitContext.defects,
    UnitContext.defects, lacks_withDirectives]
  cases hlacks : x.lacks f with
  | some d => rfl
  | none =>
    obtain ⟨result, hresult⟩ := (convert_cases hunit hnodup h.noFault).1 f hf hlacks
    obtain ⟨result', hresult'⟩ := (convert_cases hsingle hnodup' h'.noFault).1 _
      List.mem_cons_self ((lacks_withDirectives f ds x).trans hlacks)
    have hreported := reported_of_agrees hagrees hlittle hds hresult hresult'
    rw [hresult, hresult']
    cases result <;> cases result' <;> exact hreported

/-- A unit is converted if each of its functions is converted where it is left over by itself, and
has then one conversion for each function, in order. Otherwise it fails with the defects that the
functions have by themselves, one function after another. Those of a function stand on ascending
lines. The number of jobs has no part in this. -/
theorem convert_isIndependent {jobs : Option ℤ} (single : SourceFunction → String)
    (hread : Source.readUnit text = .ok records)
    (hfunctions : extractFunctions records = .ok functions)
    (hx : DataIndex.ofRecords records = .ok x) (hnodup : (functions.map (·.label)).Nodup)
    (hlittle : ∀ f ∈ functions, ∀ i ∈ f.instructions, i.AddsLittle)
    (h : IsRegular { o with jobs := jobs } text)
    (hsingle : ∀ f ∈ functions, IsRegular o (single f) ∧
      ∃ records', Source.readUnit (single f) = .ok records' ∧ IsAlone f.label records records') :
    (((∀ f ∈ functions, defectsOf (convert o (single f)) = []) ∧
        ∃ u, convert { o with jobs := jobs } text = .ok u ∧
          u.functions.map (·.source) = functions) ∨
      ((∃ f ∈ functions, defectsOf (convert o (single f)) ≠ []) ∧
        convert { o with jobs := jobs } text = .error (.defects o.file
          (functions.flatMap fun f => defectsOf (convert o (single f)))))) ∧
    ∀ f ∈ functions, (defectsOf (convert o (single f))).Pairwise fun d e =>
      IsBefore d.line e.line := by
  have hunit := readFunctions_eq_ok.mpr ⟨records, hread, hfunctions, hx⟩
  have hdefects : ∀ f ∈ functions, (unitContext { o with jobs := jobs } x functions).defects x f =
      defectsOf (convert o (single f)) := by
    intro f hf
    obtain ⟨hregular, records', hread', halone⟩ := hsingle f hf
    exact defects_eq_of_isAlone hread hfunctions hx hnodup h hf (hlittle f hf) hread' halone
      hregular
  obtain ⟨-, ds, hds, hends⟩ := convert_cases hunit hnodup h.noFault
  rw [List.flatMap_congr hdefects] at hds
  refine ⟨?_, fun f hf => ?_⟩
  · rcases hends with ⟨hne, heq⟩ | ⟨hnil, u, heq⟩
    · rw [hds] at hne heq
      refine .inr ⟨?_, heq⟩
      by_contra hall
      push Not at hall
      exact hne (List.flatMap_eq_nil_iff.mpr hall)
    · rw [hds] at hnil
      exact .inl ⟨List.flatMap_eq_nil_iff.mp hnil, u, heq, map_source_of_convert hunit hnodup heq⟩
  · rw [← hdefects f hf]
    exact defects_ascend hread hfunctions hf x

/-- A unit with a function that is converted and one with two defects, and the two units with its
lines in which the lines of one function are blanked. -/
theorem convert_isIndependent_of_two :
    let lines := [
      ".section .rodata", "t: .quad 1", ".text", "f: push rbp", "mov rbp, rsp", "mov rax, [rip+t]",
      "leave", "ret", ".globl g", "g: push rbp", "mov rbp, rsp", "cpuid", "jmp f", "leave", "ret"]
    let without (ns : List ℕ) := String.join ((lines.zipIdx 1).map fun p =>
      (if p.2 ∈ ns then "" else p.1) ++ "\n")
    let single (name : String) :=
      without (if name = "f" then [10, 11, 12, 13, 14, 15] else [4, 5, 6, 7, 8])
    ∃ records functions x, Source.readUnit (without []) = .ok records ∧
      extractFunctions records = .ok functions ∧ DataIndex.ofRecords records = .ok x ∧
      functions.map (·.label) = ["f", "g"] ∧
      (∀ f ∈ functions, ∀ i ∈ f.instructions, i.AddsLittle) ∧
      IsRegular { jobs := some 4 } (without []) ∧
      (∀ f ∈ functions, IsRegular {} (single f.label) ∧
        ∃ records', Source.readUnit (single f.label) = .ok records' ∧
          IsAlone f.label records records') ∧
      (functions.map fun f => (defectsOf (convert {} (single f.label))).map (·.line)) =
        [[], [some 12, some 13]] ∧
      convert { jobs := some 4 } (without []) = .error (.defects none
        (functions.flatMap fun f => defectsOf (convert {} (single f.label)))) := by
  intro lines without single
  obtain ⟨hwhole, hanswer, hf, hg, hsingles⟩ :
      ((readFunctions (without [])).toOption.any fun r => decide (
        r.1.map (·.label) = ["f", "g"] ∧ (∀ f ∈ r.1, ∀ i ∈ f.instructions, i.AddsLittle) ∧
        (unitContext {} r.2 r.1).pool.size < 2 ^ 30)) = true ∧
      isAnswer (convert { jobs := some 4 } (without [])) = true ∧
      (defectsOf (convert {} (single "f"))).map (·.line) = [] ∧
      (defectsOf (convert {} (single "g"))).map (·.line) = [some 12, some 13] ∧
      ∀ name ∈ ["f", "g"],
        Source.readUnit (single name) = (Source.readUnit (without [])).map (leaveOver name) ∧
        ((readFunctions (single name)).toOption.any fun r =>
          decide ((unitContext {} r.2 r.1).pool.size < 2 ^ 30)) = true ∧
        isAnswer (convert {} (single name)) = true := by
    decide +kernel
  clear_value single without
  obtain ⟨⟨functions, x⟩, hunit, hlabels, hlittle, hsize⟩ := exists_ok_of_any hwhole
  obtain ⟨records, hread, hfunctions, hx⟩ := readFunctions_eq_ok.mp hunit
  have hregular : IsRegular { jobs := some 4 } (without []) :=
    isRegular_of_isAnswer hunit hsize hanswer
  have hsingle : ∀ f ∈ functions, IsRegular {} (single f.label) ∧
      ∃ records', Source.readUnit (single f.label) = .ok records' ∧
        IsAlone f.label records records' := by
    intro f hf
    obtain ⟨heq, hsize, hanswer⟩ := hsingles f.label (hlabels ▸ List.mem_map_of_mem hf)
    obtain ⟨r, hr, hsize⟩ := exists_ok_of_any hsize
    rw [hread] at heq
    exact ⟨isRegular_of_isAnswer hr hsize hanswer, _, heq,
      isAlone_of_extractFunctions hfunctions hf⟩
  have hlines : (functions.map fun f => (defectsOf (convert {} (single f.label))).map (·.line)) =
      [[], [some 12, some 13]] := by
    have hmap := congrArg
      (List.map fun name => (defectsOf (convert {} (single name))).map (·.line)) hlabels
    rwa [List.map_map, List.map_cons, List.map_singleton, hf, hg] at hmap
  have hnodup : (functions.map (·.label)).Nodup := by
    rw [hlabels]
    decide
  refine ⟨records, functions, x, hread, hfunctions, hx, hlabels, hlittle, hregular, hsingle, hlines,
    ?_⟩
  obtain ⟨⟨hall, -⟩ | ⟨-, heq⟩, -⟩ := convert_isIndependent (fun f => single f.label) hread
    hfunctions hx hnodup hlittle hregular hsingle
  · have hmem : [some 12, some 13] ∈ functions.map fun f =>
        (defectsOf (convert {} (single f.label))).map (·.line) := by
      rw [hlines]
      exact List.mem_cons_of_mem _ List.mem_cons_self
    obtain ⟨f, hf, heq⟩ := List.mem_map.mp hmem
    rw [hall f hf] at heq
    cases heq
  · exact heq

end Units

end AsmBridge
