import AsmBridge.Proofs.Abi.StackArguments
import AsmBridge.Proofs.Conversion.Defects
import AsmBridge.Proofs.Signature.File
import AsmBridge.Proofs.Signature.Prototypes
import AsmBridge.Proofs.Source.Texts

/-!
# Conversions with their own declarations

The Go file that declares the functions of a converted unit is read back to their signatures, as far
as their symbols are names. A unit that is converted again, with these declarations in the place of
the prototypes, has the same listing (`convert_of_goDeclarations`): what was discovered before is
declared now, and a function whose symbol is no name is discovered again.
-/

namespace AsmBridge

/-! ## Signatures -/

namespace Signature

variable {s s' : Signature}

/-- The signatures have the same arguments and the same result. -/
structure Matches (s s' : Signature) : Prop where
  args : s'.args = s.args
  result : s'.result = s.result

/-- The names of the arguments are words, and no type is written with blanks, parentheses or
commas. -/
structure IsPlain (s : Signature) : Prop where
  names : ∀ a ∈ s.args, IsName a.name
  kinds : ∀ a ∈ s.args ++ s.result.toList, ∀ c ∈ a.kind.toList,
    Text.isBlank c = false ∧ c ∉ ['(', ')', ',']

instance (s : Signature) : Decidable s.IsPlain :=
  decidable_of_iff
    ((∀ a ∈ s.args, IsName a.name) ∧ ∀ a ∈ s.args ++ s.result.toList, ∀ c ∈ a.kind.toList,
      Text.isBlank c = false ∧ c ∉ ['(', ')', ','])
    ⟨fun h => ⟨h.1, h.2⟩, fun h => ⟨h.names, h.kinds⟩⟩

lemma Matches.validate (h : s.Matches s') (hs : s.validate = .ok s) : s'.validate = .ok s' := by
  obtain ⟨-, hargs, hresult⟩ := validate_eq_ok_iff.mp hs
  exact validate_eq_ok_iff.mpr ⟨rfl, h.args ▸ hargs, h.result ▸ hresult⟩

lemma Matches.resultShape (h : s.Matches s') : s'.resultShape = s.resultShape := by
  rw [Signature.resultShape, Signature.resultShape, h.result]

lemma Matches.argBytes (h : s.Matches s') : s'.argBytes = s.argBytes := by
  rw [Signature.argBytes, Signature.argBytes, resultShape?, resultShape?, h.resultShape, h.args]

lemma Matches.assignArguments (h : s.Matches s') :
    AsmBridge.assignArguments s' = AsmBridge.assignArguments s := by
  rw [AsmBridge.assignArguments, AsmBridge.assignArguments, h.args]

lemma Matches.epilogue (h : s.Matches s') (l : FrameLayout) :
    AsmBridge.epilogue s' l = AsmBridge.epilogue s l := by
  rw [AsmBridge.epilogue, AsmBridge.epilogue, h.result, h.resultShape, resultOffset, resultOffset,
    h.args]

/-- A type that passes the check of its signature is not empty. -/
lemma kind_ne_nil (hs : s.validate = .ok s) {a : Argument} (ha : a ∈ s.args ++ s.result.toList) :
    a.kind.toList ≠ [] := by
  obtain ⟨-, hargs, hresult⟩ := validate_eq_ok_iff.mp hs
  intro hnil
  have hempty : a.kind = "" := String.toList_eq_nil_iff.mp hnil
  rcases List.mem_append.mp ha with ha | ha
  · have hclass := hargs a ha
    rw [Argument.class?, hempty] at hclass
    cases hclass
  · obtain ⟨shape, hshape⟩ := hresult a (Option.mem_toList.mp ha)
    rw [hempty] at hshape
    cases hshape

end Signature

/-- A name may stand as a word in a list. -/
lemma IsName.isListWord {s : String} (h : IsName s) : IsListWord s := by
  rw [IsName, Text.someAll, Bool.and_eq_true, List.all_eq_true] at h
  refine ⟨by simpa using h.1, fun c hc => ?_⟩
  have hword := h.2 c hc
  refine ⟨Text.isBlank_eq_false_of_isWord hword, ?_, ?_⟩ <;>
  · rintro rfl
    revert hword
    decide +kernel

namespace Signature

variable {s : Signature}

/-- A declaration is read back if its types are plain and can be passed in registers. -/
lemma IsPlain.isListed (h : s.IsPlain) (hs : s.validate = .ok s) (hresult : s.HasNamedResult) :
    s.IsListed := by
  have hkinds : ∀ a ∈ s.args ++ s.result.toList, IsListWord a.kind := by
    intro a ha
    refine ⟨kind_ne_nil hs ha, fun c hc => ?_⟩
    obtain ⟨hblank, hplain⟩ := h.kinds a ha c hc
    simp only [List.mem_cons, not_or] at hplain
    exact ⟨hblank, hplain.2.2.1, hplain.2.1⟩
  constructor
  · exact fun a ha => ⟨(h.names a ha).isListWord, hkinds a (List.mem_append_left _ ha)⟩
  · intro r hr
    obtain ⟨hname, hunder⟩ := hresult r hr
    exact ⟨⟨hname, hkinds r (List.mem_append_right _ (Option.mem_toList.mpr hr))⟩, hunder⟩

/-- A signature that is made up from numbers of arguments is plain. -/
lemma isPlain_discover (name : String) (a b c : ℤ) : (discover name a b c).IsPlain := by
  constructor
  · intro x hx
    obtain ⟨i, -, rfl⟩ := List.mem_map.mp hx
    have hdigits : (toString (i + 1)).toList = Nat.toDigits 10 (i + 1) := by
      rw [Nat.toString_eq_ofList_toDigits, String.toList_ofList]
    rw [IsName, Text.someAll, String.toList_append, hdigits, Bool.and_eq_true, List.all_eq_true]
    refine ⟨rfl, fun d hd => ?_⟩
    rcases List.mem_append.mp hd with hd | hd
    · have harg : ∀ d ∈ "arg".toList, Text.isWord d = true := by decide +kernel
      exact harg d hd
    · have hdigit := Nat.isDigit_of_mem_toDigits (by decide) (by decide) hd
      simp [Text.isWord, Char.isAlphanum, hdigit]
  · intro x hx
    rw [show (discover name a b c).result = none from rfl, Option.toList_none, List.append_nil] at hx
    obtain ⟨i, -, rfl⟩ := List.mem_map.mp hx
    dsimp only
    split_ifs <;> decide +kernel

end Signature

/-! ## Functions -/

section Functions

variable {c c' : UnitContext} {f : SourceFunction} {g : ConvertedFunction} {s s' : Signature}

/-- The conversion of a function under another signature with the same arguments and the same result
is the same but for the signature. -/
lemma convertBody_of_matches {p : FunctionPlan} (hsymbol : c'.options.symbol f = c.options.symbol f)
    (hhelpers : c'.helpers = c.helpers) (hpool : c'.pool = c.pool)
    (hmatches : p.signature.Matches s') (h : convertBody c f p = .ok (.ok g)) :
    convertBody c' f { p with signature := s' } = .ok (.ok { g with signature := s' }) := by
  have hrecord : convertRecord c' f = convertRecord c f :=
    convertRecord_congr hhelpers (congrArg Pool.name hpool) (congrArg rebaseOperands hpool)
  unfold convertBody at h ⊢
  rw [hpool, hrecord, hsymbol]
  dsimp only at h ⊢
  rw [hmatches.epilogue]
  obtain ⟨entry, hentry, h⟩ := bind_eq_ok.mp h
  refine bind_eq_ok.mpr ⟨entry, hentry, ?_⟩
  by_cases hreturns : f.returns = 0
  all_goals
    simp only [hreturns, if_true, if_false] at h ⊢
    obtain ⟨exit, hexit, h⟩ := bind_eq_ok.mp h
    obtain ⟨results, hresults, h⟩ := bind_eq_ok.mp h
    refine bind_eq_ok.mpr ⟨exit, hexit, bind_eq_ok.mpr ⟨results, hresults, ?_⟩⟩
    split at h
    · rename_i hds
      obtain rfl := Except.ok.inj (pure_eq_ok.mp h)
      rw [if_pos hds]
      rfl
    · cases pure_eq_ok.mp h

/-- A function that has a plan has one under every signature with the same arguments. -/
lemma planFunction_of_matches {p : FunctionPlan} (hhelpers : c'.helpers = c.helpers)
    (h : planFunction c f = .ok p)
    (hs : f.resolveSignature (c'.options.symbol f) c'.options.prototypes = .ok s')
    (hmatches : p.signature.Matches s') : planFunction c' f = .ok { p with signature := s' } := by
  unfold planFunction at h ⊢
  obtain ⟨s, -, h⟩ := bind_eq_ok.mp h
  obtain ⟨reserve, hreserve, h⟩ := bind_eq_ok.mp h
  obtain ⟨layout, hlayout, h⟩ := bind_eq_ok.mp h
  rw [hhelpers]
  refine bind_eq_ok.mpr ⟨s', hs, bind_eq_ok.mpr ⟨reserve, hreserve, bind_eq_ok.mpr ⟨layout, ?_⟩⟩⟩
  split at h <;> rename_i hreferences
  · obtain rfl := pure_eq_ok.mp h
    rw [hmatches.assignArguments]
    exact ⟨hlayout, by simp [hreferences]⟩
  · obtain ⟨r, hr, h⟩ := bind_eq_ok.mp h
    obtain rfl := pure_eq_ok.mp h
    rw [hmatches.assignArguments]
    refine ⟨hlayout, ?_⟩
    rw [if_neg hreferences]
    exact bind_eq_ok.mpr ⟨r, hr, rfl⟩

/-- A body is converted under the symbol of its function, with the signature of its plan. -/
lemma fields_of_convertBody {p : FunctionPlan} (h : convertBody c f p = .ok (.ok g)) :
    g.source = f ∧ g.symbol = c.options.symbol f ∧ g.signature = p.signature := by
  obtain ⟨entry, exit, parts, -, -, -, rfl⟩ := convertBody_eq_ok h
  exact ⟨rfl, rfl, rfl⟩

/-- A converted function has the signature that is found for it. -/
lemma resolveSignature_of_convertFunction (h : convertFunction c f = .ok (.ok g)) :
    f.resolveSignature (c.options.symbol f) c.options.prototypes = .ok g.signature := by
  obtain ⟨-, p, hp, hbody⟩ := convertFunction_eq_ok_iff.mp h
  rw [(fields_of_convertBody hbody).2.2]
  exact (isPlanOf_of_planFunction hp).signature

/-- A converted function is converted alike under a signature with the same arguments and the same
result. -/
lemma convertFunction_of_matches (hsymbol : c'.options.symbol f = c.options.symbol f)
    (hhelpers : c'.helpers = c.helpers) (hpool : c'.pool = c.pool)
    (h : convertFunction c f = .ok (.ok g))
    (hs : f.resolveSignature (c'.options.symbol f) c'.options.prototypes = .ok s')
    (hmatches : g.signature.Matches s') :
    convertFunction c' f = .ok (.ok { g with signature := s' }) := by
  obtain ⟨hproblems, p, hp, hbody⟩ := convertFunction_eq_ok_iff.mp h
  rw [(fields_of_convertBody hbody).2.2] at hmatches
  exact convertFunction_eq_ok_iff.mpr ⟨hproblems, _, planFunction_of_matches hhelpers hp hs hmatches,
    convertBody_of_matches hsymbol hhelpers hpool hmatches hbody⟩

end Functions

/-! ## Prototypes -/

section Prototypes

variable {f : SourceFunction} {symbol : String} {prototypes p : Prototypes} {s s' : Signature}

/-- No prototype is found under what is no name. -/
lemma find?_eq_none (hp : ∀ s ∈ p.signatures, s.IsDeclared) (hname : ¬IsName symbol) :
    p.find? symbol = none := by
  rw [Prototypes.find?, List.find?_eq_none]
  intro s hs heq
  exact hname (beq_iff_eq.mp heq ▸ (hp s hs).name)

/-- A function that has a signature has any other one with the same arguments and the same result
that is declared for it. -/
lemma resolveSignature_of_find? (h : f.resolveSignature symbol prototypes = .ok s)
    (hp : p.find? symbol = some s') (hmatches : s.Matches s') :
    f.resolveSignature symbol p = .ok s' := by
  obtain ⟨n, hn⟩ : ∃ n, f.stackArguments = .ok n := by
    rcases resolveSignature_eq_ok h with ⟨-, hn⟩ | ⟨-, hs⟩
    · exact hn
    · exact ⟨_, stackArguments_of_discoverSignature hs⟩
  rw [SourceFunction.resolveSignature, hp]
  exact bind_eq_ok.mpr ⟨n, hn, hmatches.validate (validate_of_resolveSignature h)⟩

/-- The signatures that are read back from a file of declarations are such as declarations give. -/
lemma isDeclared_of_mem_declaredSignatures {fs : List (String × Signature)}
    (hfs : ∀ f ∈ fs, f.2.IsListed) : ∀ s ∈ declaredSignatures fs, s.IsDeclared := by
  intro s hs
  obtain ⟨f, hf, rfl⟩ := List.mem_map.mp hs
  obtain ⟨hf, hname⟩ := List.mem_filter.mp hf
  exact ⟨of_decide_eq_true hname, fun r hr =>
    ⟨((hfs f hf).result r hr).1.1, ((hfs f hf).result r hr).2⟩⟩

/-- Each symbol that is a name has its signature in a file of declarations. -/
lemma find?_declaredSignatures {fs : List (String × Signature)} (hnodup : (fs.map (·.1)).Nodup)
    {q : String × Signature} (hq : q ∈ fs) (hname : IsName q.1) :
    Prototypes.find? ⟨declaredSignatures fs⟩ q.1 = some (declaredSignature q.1 q.2) := by
  have hmem : declaredSignature q.1 q.2 ∈ declaredSignatures fs :=
    List.mem_map.mpr ⟨q, List.mem_filter.mpr ⟨hq, decide_eq_true hname⟩, rfl⟩
  rw [Prototypes.find?]
  cases hfind : (declaredSignatures fs).find? (·.name == q.1) with
  | none => simpa [declaredSignature] using List.find?_eq_none.mp hfind _ hmem
  | some s =>
    obtain ⟨r, hr, rfl⟩ := List.mem_map.mp (List.mem_of_find?_eq_some hfind)
    have heq : r.1 = q.1 := by simpa [declaredSignature] using List.find?_some hfind
    obtain rfl := List.inj_on_of_nodup_map hnodup (List.mem_filter.mp hr).1 hq heq
    rfl

end Prototypes

/-! ## Symbols -/

section Symbols

variable {o : Options} {f : SourceFunction}

/-- The name of a function is its label, perhaps without its first character. -/
lemma mem_label_of_mem_name {c : Char} (hc : c ∈ f.name.toList) : c ∈ f.label.toList := by
  rw [SourceFunction.name] at hc
  split at hc
  · rw [Text.dropChars, String.toList_ofList] at hc
    exact List.mem_of_mem_drop hc
  · exact hc

/-- A symbol has only characters of symbols, if the prefix is of words. -/
lemma isSymbolText_symbol (hwords : ∀ c ∈ o.symbolPrefix.toList, Text.isWord c = true)
    (hlabel : IsSymbol f.label) : IsSymbolText (o.symbol f) := by
  have hname : ∀ c ∈ f.name.toList, Text.isSymbolRest c = true := by
    intro c hc
    obtain ⟨d, rest, hlabel, hstart, hrest⟩ := hlabel
    rcases List.mem_cons.mp (hlabel ▸ mem_label_of_mem_name hc) with rfl | hc
    · simp only [Text.isSymbolStart, Bool.or_eq_true] at hstart
      simp only [Text.isSymbolRest, Text.isWord, Char.isAlphanum, Bool.or_eq_true]
      tauto
    · exact hrest c hc
  intro c hc
  rw [Options.symbol] at hc
  split at hc
  · exact hname c hc
  · rcases List.mem_append.mp (String.toList_append ▸ hc) with hc | hc
    · rw [Text.isSymbolRest, hwords c hc]
      rfl
    · exact hname c hc

/-- A symbol is a name where the name of its function is one, if the prefix is of words. -/
lemma isName_symbol (hwords : ∀ c ∈ o.symbolPrefix.toList, Text.isWord c = true)
    (h : IsName f.name) : IsName (o.symbol f) := by
  rw [Options.symbol]
  split
  · exact h
  · simp only [IsName, Text.someAll, Bool.and_eq_true, List.all_eq_true, String.toList_append,
      List.mem_append] at h ⊢
    exact ⟨by simpa using fun _ => h.1, fun c hc => hc.elim (hwords c) (h.2 c)⟩

/-- The declaration of a function: that of its symbol, else that of its name. -/
def Options.declaration? (o : Options) (f : SourceFunction) : Option Signature :=
  (o.prototypes.find? (o.symbol f)).or (o.prototypes.find? f.name)

/-- What a Go source declares has a name as symbol, if the prefix is of words, and its result has a
name of its own. -/
lemma isName_of_declaration? {source : String} {s : Signature}
    (hread : Prototypes.read source = .ok o.prototypes)
    (hwords : ∀ c ∈ o.symbolPrefix.toList, Text.isWord c = true) (hs : o.declaration? f = some s) :
    IsName (o.symbol f) ∧ s.HasNamedResult := by
  have hfind : ∀ {name : String}, o.prototypes.find? name = some s →
      IsName name ∧ s.HasNamedResult := by
    intro name hfind
    rw [Prototypes.find?] at hfind
    have hdeclared := Prototypes.read_isDeclared hread s (List.mem_of_find?_eq_some hfind)
    have hname : s.name = name := by simpa using List.find?_some hfind
    exact ⟨hname ▸ hdeclared.name, hdeclared.result⟩
  rcases Option.or_eq_some_iff.mp hs with hs | ⟨-, hs⟩
  · exact hfind hs
  · exact ⟨isName_symbol hwords (hfind hs).1, (hfind hs).2⟩

/-- Prototypes under names do not matter to a function that is not declared and has no name. -/
lemma resolveSignature_congr {p : Prototypes} (hnone : o.declaration? f = none)
    (hp : ∀ s ∈ p.signatures, s.IsDeclared) (hsymbol : ¬IsName (o.symbol f))
    (hname : ¬IsName f.name) :
    f.resolveSignature (o.symbol f) p = f.resolveSignature (o.symbol f) o.prototypes := by
  rw [Options.declaration?] at hnone
  rw [SourceFunction.resolveSignature, SourceFunction.resolveSignature, hnone,
    find?_eq_none hp hsymbol, find?_eq_none hp hname]
  rfl

/-- The signature of a function can be declared, if it is plain and its result has a name of its own
wherever it is declared already. -/
lemma isListed_of_resolveSignature {s : Signature} (hplain : ∀ s ∈ o.declaration? f, s.IsPlain)
    (hresult : ∀ s ∈ o.declaration? f, s.HasNamedResult)
    (h : f.resolveSignature (o.symbol f) o.prototypes = .ok s) : s.IsListed := by
  have hvalid := validate_of_resolveSignature h
  rcases resolveSignature_eq_ok h with ⟨hfind, -⟩ | ⟨-, hs⟩
  · exact (hplain s hfind).isListed hvalid (hresult s hfind)
  · obtain ⟨-, name, a, b, n, -, -, rfl, -⟩ := discoverSignature_eq_ok hs
    exact (Signature.isPlain_discover name a b n).isListed hvalid fun r hr => nomatch hr

end Symbols

/-! ## Units -/

section Units

variable {o : Options} {text : String} {functions : List SourceFunction} {x : DataIndex}
  {u : ConvertedUnit}

/-- A unit whose labels name one function each is converted function by function. -/
structure ConvertsEach (o : Options) (text : String) (functions : List SourceFunction)
    (x : DataIndex) (u : ConvertedUnit) : Prop where
  read : readFunctions text = .ok (functions, x)
  labels : (functions.map (·.label)).Nodup
  /-- No function lacks data. -/
  present : ∀ f ∈ functions, (requireConstants x o.poolName functions).2.lookup f.label = none
  each : List.Forall₂ (fun f g => convertFunction (unitContext o x functions) f = .ok (.ok g))
    functions u.functions
  pool : (unitContext o x functions).pool = u.pool
  writable : Text.isWritable u.pool.size = true
  jobs : o.jobs.isSome = true
  listing : renderUnit o.style u.pool u.functions = .ok u.text

lemma divide_map_ok (gs : List ConvertedFunction) : divide (gs.map .ok) = ([], gs) := by
  induction gs with
  | nil => rfl
  | cons g gs ih => rw [List.map_cons, divide, ih]

/-- Computations that have values, as a row. -/
lemma map_eq_map_ok {α β ε : Type} {out : α → Except ε β} {as : List α} {bs : List β}
    (h : List.Forall₂ (fun a b => out a = .ok b) as bs) : as.map out = bs.map .ok := by
  induction h with
  | nil => rfl
  | cons hab _ ih => rw [List.map_cons, List.map_cons, hab, ih]

lemma ConvertsEach.convert (h : ConvertsEach o text functions x u) : convert o text = .ok u := by
  have htodo : todo o x functions = functions :=
    List.filter_eq_self.mpr fun f hf => by rw [h.present f hf]; rfl
  have hresults : functions.mapM (convertFunction (unitContext o x functions)) =
      .ok (u.functions.map Except.ok) := by
    rw [mapM_eq_ok, List.forall₂_map_right_iff]
    exact h.each
  refine convert_eq_ok_iff.mpr ⟨functions, x, u.functions.map Except.ok, h.read, h.writable, h.jobs,
    htodo.symm ▸ hresults, ?_, h.pool, h.listing⟩
  rw [outcomes, htodo, map_eq_map_ok, divide_map_ok]
  refine ((List.forall₂_and_left _ _).mpr ⟨fun f hf => hf, h.each⟩).imp ?_
  rintro f g ⟨hf, hg⟩
  rw [outcome, h.present f hf]
  cases hlookup :
      ((functions.map (·.label)).zip (u.functions.map Except.ok)).reverse.lookup f.label with
  | none => exact absurd hlookup (lookup_ne_none hresults hf)
  | some r =>
    obtain ⟨f', hf', hlabel, hr⟩ := exists_of_lookup hresults hlookup
    obtain rfl := eq_of_label_eq h.labels hf' hf hlabel
    exact Except.ok.inj (hr.symm.trans hg)

/-- A unit that is converted to functions with symbols of their own is converted function by
function. -/
lemma exists_convertsEach (h : convert o text = .ok u)
    (hsymbols : (u.functions.map (·.symbol)).Nodup) :
    ∃ functions x, ConvertsEach o text functions x u := by
  obtain ⟨functions, x, results, hread, hwritable, hjobs, hresults, hdivide, hpool, hlisting⟩ :=
    convert_eq_ok_iff.mp h
  have houtcome := fun {f} (hf : f ∈ functions) =>
    exists_outcome rfl hresults (congrArg Prod.fst hdivide) hf
  have hfs : List.Forall₂ _ functions (divide (outcomes o x functions results)).2 :=
    divide_eq fun f hf => let ⟨g, hg, h⟩ := (houtcome hf).2; ⟨g, hg, And.intro hg h⟩
  rw [hdivide] at hfs
  -- An outcome depends on the label only, so that functions with one label have one symbol.
  have hlabels : (functions.map (·.label)).Nodup := by
    have hrow := map_eq_map_ok (hfs.imp fun f g h => h.1)
    have hnodup : (u.functions.map fun g => (.ok g : Except (List Diagnostic) _)).Nodup :=
      (List.Nodup.of_map _ hsymbols).map fun g g' heq => Except.ok.inj heq
    rw [← hrow] at hnodup
    refine List.Nodup.of_map (fun l => outcome (requireConstants x o.poolName functions).2
      (((todo o x functions).map (·.label)).zip results) { label := l }) ?_
    rw [List.map_map]
    exact hnodup
  refine ⟨functions, x, hread, hlabels, fun f hf => (houtcome hf).1, ?_, hpool, hwritable, hjobs,
    hlisting⟩
  refine ((List.forall₂_and_left _ _).mpr ⟨fun f hf => hf, hfs⟩).imp ?_
  rintro f g ⟨hf, -, hlabel, hsource, hg⟩
  rwa [eq_of_label_eq hlabels hsource hf hlabel] at hg

end Units

/-! ## Conversion with declarations -/

/-- What is told of a converted function besides its code. -/
structure FunctionInfo where
  name : String
  symbol : String
  arguments : ℕ
  argBytes : ℕ
  frameBytes : ℤ
deriving DecidableEq

namespace ConvertedFunction

def info (g : ConvertedFunction) : FunctionInfo :=
  { name := g.source.name, symbol := g.symbol, arguments := g.signature.args.length,
    argBytes := g.signature.argBytes, frameBytes := g.layout.size }

/-- The function with the signature that is read back for it, if its symbol is a name. -/
def redeclared (g : ConvertedFunction) : ConvertedFunction :=
  if IsName g.symbol then { g with signature := declaredSignature g.symbol g.signature } else g

/-- The function differs at most in the name of its signature. -/
lemma exists_redeclared (g : ConvertedFunction) :
    ∃ s, g.signature.Matches s ∧ g.redeclared = { g with signature := s } := by
  rw [redeclared]
  split
  · exact ⟨declaredSignature g.symbol g.signature, ⟨rfl, rfl⟩, rfl⟩
  · exact ⟨g.signature, ⟨rfl, rfl⟩, rfl⟩

@[simp] lemma info_redeclared (g : ConvertedFunction) : g.redeclared.info = g.info := by
  obtain ⟨s, hs, heq⟩ := g.exists_redeclared
  rw [heq, info, info, hs.args, hs.argBytes]

@[simp] lemma renderFunction_redeclared (style : ListingStyle) (g : ConvertedFunction) :
    renderFunction style g.redeclared = renderFunction style g := by
  obtain ⟨s, hs, heq⟩ := g.exists_redeclared
  rw [heq, renderFunction, renderFunction, hs.argBytes]

end ConvertedFunction

section Declared

variable {o : Options} {text package : String} {functions : List SourceFunction} {x : DataIndex}
  {u : ConvertedUnit}

lemma renderUnit_redeclared (style : ListingStyle) (pool : Pool) (gs : List ConvertedFunction) :
    renderUnit style pool (gs.map ConvertedFunction.redeclared) = renderUnit style pool gs := by
  refine renderUnit_congr rfl ?_
  rw [List.forall₂_map_right_iff, List.forall₂_same]
  exact fun g _ => g.renderFunction_redeclared style

/-- The functions of a unit can be declared under their symbols. -/
lemma isListed_of_convertsEach (h : ConvertsEach o text functions x u)
    (hwords : ∀ c ∈ o.symbolPrefix.toList, Text.isWord c = true)
    (hplain : ∀ g ∈ u.functions, ∀ s ∈ o.declaration? g.source, s.IsPlain)
    (hresult : ∀ g ∈ u.functions, ∀ s ∈ o.declaration? g.source, s.HasNamedResult) :
    ∀ q ∈ u.functions.map (fun g => (g.symbol, g.signature)),
      IsSymbolText q.1 ∧ q.2.IsListed := by
  intro q hq
  obtain ⟨g, hg, rfl⟩ := List.mem_map.mp hq
  obtain ⟨f, hf, hconvert⟩ := exists_of_mem_right h.each hg
  obtain ⟨-, p, -, hbody⟩ := convertFunction_eq_ok_iff.mp hconvert
  obtain ⟨records, hrecords, hextract, -⟩ := readFunctions_eq_ok.mp h.read
  obtain ⟨hsource, hsymbol, -⟩ := fields_of_convertBody hbody
  constructor
  · rw [hsymbol]
    exact isSymbolText_symbol hwords (extractFunctions_isWritten hrecords hextract hf).1
  · exact isListed_of_resolveSignature (hsource ▸ hplain g hg) (hsource ▸ hresult g hg)
      (resolveSignature_of_convertFunction hconvert)

/-- With the declarations of its functions as prototypes a unit is converted alike, but for the
names of the signatures. -/
lemma ConvertsEach.redeclared (h : ConvertsEach o text functions x u)
    (hwords : ∀ c ∈ o.symbolPrefix.toList, Text.isWord c = true)
    (hnames : ∀ g ∈ u.functions, ∀ s ∈ o.declaration? g.source, IsName g.symbol)
    (hsymbols : (u.functions.map (·.symbol)).Nodup)
    (hlisted : ∀ g ∈ u.functions, g.signature.IsListed) :
    ConvertsEach
      { o with prototypes :=
          ⟨declaredSignatures (u.functions.map fun g => (g.symbol, g.signature))⟩ }
      text functions x { u with functions := u.functions.map ConvertedFunction.redeclared } := by
  refine ⟨h.read, h.labels, h.present, ?_, h.pool, h.writable, h.jobs,
    (renderUnit_redeclared _ _ _).trans h.listing⟩
  rw [List.forall₂_map_right_iff]
  refine ((List.forall₂_and_left _ _).mpr ⟨fun g hg => hg, h.each.flip⟩).flip.imp ?_
  rintro f g ⟨hg, hconvert⟩
  obtain ⟨-, p, -, hbody⟩ := convertFunction_eq_ok_iff.mp hconvert
  obtain ⟨hsource, hsymbol, -⟩ : g.source = f ∧ g.symbol = o.symbol f ∧ _ :=
    fields_of_convertBody hbody
  have hresolve := resolveSignature_of_convertFunction hconvert
  rw [ConvertedFunction.redeclared]
  split
  · rename_i hname
    refine convertFunction_of_matches (c := unitContext o x functions) rfl rfl rfl hconvert ?_
      ⟨rfl, rfl⟩
    refine resolveSignature_of_find? hresolve ?_ ⟨rfl, rfl⟩
    change Prototypes.find? _ (o.symbol f) = _
    rw [← hsymbol]
    refine find?_declaredSignatures (q := (g.symbol, g.signature)) ?_
      (List.mem_map.mpr ⟨g, hg, rfl⟩) hname
    rwa [List.map_map]
  · rename_i hname
    refine convertFunction_of_matches (c := unitContext o x functions) rfl rfl rfl hconvert ?_
      ⟨rfl, rfl⟩
    refine (resolveSignature_congr (o := o) ?_ ?_ ?_ ?_).trans hresolve
    · exact Option.eq_none_iff_forall_not_mem.mpr fun s hs => hname (hnames g hg s (hsource ▸ hs))
    · refine isDeclared_of_mem_declaredSignatures fun q hq => ?_
      obtain ⟨g', hg', rfl⟩ := List.mem_map.mp hq
      exact hlisted g' hg'
    · exact hsymbol ▸ hname
    · exact fun hf => hname (hsymbol ▸ isName_symbol hwords hf)

/-- A unit is converted to functions with symbols of their own. Wherever a function was declared, the
declaration is plain and its result has a name of its own, and the symbol of the function is a name.
Then the Go file that declares the functions is read back: each function whose symbol is a name has a
signature under it with the same arguments and the same result. With these as prototypes the unit is
converted again, to the same listing, and the same is told of its functions. -/
theorem convert_of_goDeclarations (hpackage : IsName package)
    (hwords : ∀ c ∈ o.symbolPrefix.toList, Text.isWord c = true)
    (hu : convert o text = .ok u) (hsymbols : (u.functions.map (·.symbol)).Nodup)
    (hplain : ∀ g ∈ u.functions, ∀ s ∈ o.declaration? g.source, s.IsPlain)
    (hdeclared : ∀ g ∈ u.functions, ∀ s ∈ o.declaration? g.source,
      IsName g.symbol ∧ s.HasNamedResult) :
    ∃ p, Prototypes.read (u.goDeclarations package) = .ok p ∧
      (∀ g ∈ u.functions, IsName g.symbol →
        ∃ s, p.find? g.symbol = some s ∧ g.signature.Matches s) ∧
      ∃ u', convert { o with prototypes := p } text = .ok u' ∧ u'.text = u.text ∧
        u'.pool = u.pool ∧
        u'.functions.map ConvertedFunction.info = u.functions.map ConvertedFunction.info := by
  obtain ⟨functions, x, heach⟩ := exists_convertsEach hu hsymbols
  have hfs := isListed_of_convertsEach heach hwords hplain fun g hg s hs => (hdeclared g hg s hs).2
  have hnodup : ((u.functions.map fun g => (g.symbol, g.signature)).map (·.1)).Nodup := by
    rwa [List.map_map]
  have hbreak : '\n' ∉ package.toList := by
    intro hmem
    have hword := (hpackage.isListWord.2 _ hmem).1
    revert hword
    decide
  refine ⟨_, read_goDeclarations hbreak hfs hnodup, ?_, ?_⟩
  · intro g hg hname
    exact ⟨_, find?_declaredSignatures hnodup (q := (g.symbol, g.signature))
      (List.mem_map.mpr ⟨g, hg, rfl⟩) hname, rfl, rfl⟩
  · have hlisted : ∀ g ∈ u.functions, g.signature.IsListed := fun g hg =>
      (hfs _ (List.mem_map.mpr ⟨g, hg, rfl⟩)).2
    have hagain := heach.redeclared hwords (fun g hg s hs => (hdeclared g hg s hs).1) hsymbols hlisted
    refine ⟨_, hagain.convert, rfl, rfl, ?_⟩
    simp

/-- A function with a result that a Go source declares, a discovered one, and one whose symbol is no
name. -/
theorem convert_of_goDeclarations_of_three :
    let text := String.join [
      "f: push rbp\n", "mov rbp, rsp\n", "lea rax, [rdi + rsi]\n", "pop rbp\n", "ret\n",
      "g: push rbp\n", "mov rbp, rsp\n", "addsd xmm0, xmm1\n", "movsd [rdi], xmm0\n", "leave\n",
      "ret\n", "h.cold: push rbp\n", "mov rbp, rsp\n", "inc qword ptr [rdi]\n", "leave\n",
      "ret\n"]
    let o : Options := { prototypes :=
      ⟨[{ name := "_f", args := [⟨"a", "int"⟩, ⟨"b", "int"⟩], result := some ⟨"sum", "int"⟩ }]⟩ }
    ∃ u p u', convert o text = .ok u ∧ u.functions.map (·.symbol) = ["_f", "_g", "_h.cold"] ∧
      (∀ g ∈ u.functions, ∀ s ∈ o.declaration? g.source,
        s.IsPlain ∧ IsName g.symbol ∧ s.HasNamedResult) ∧
      Prototypes.read (u.goDeclarations "stubs") = .ok p ∧
      (∀ g ∈ u.functions, IsName g.symbol →
        ∃ s, p.find? g.symbol = some s ∧ g.signature.Matches s) ∧
      convert { o with prototypes := p } text = .ok u' ∧ u'.text = u.text ∧
      u'.functions.map ConvertedFunction.info = u.functions.map ConvertedFunction.info := by
  intro text o
  have hread : Prototypes.read "func _f(a, b int) (sum int)\n" = .ok o.prototypes := by
    decide +kernel
  have hwords : ∀ c ∈ o.symbolPrefix.toList, Text.isWord c = true := by decide
  obtain ⟨u, hu, hsymbols, hsources, hplain⟩ : ∃ u, convert o text = .ok u ∧
      u.functions.map (·.symbol) = ["_f", "_g", "_h.cold"] ∧
      (∀ g ∈ u.functions, g.symbol = o.symbol g.source) ∧
      ∀ g ∈ u.functions, ∀ s ∈ o.declaration? g.source, s.IsPlain :=
    exists_ok_of_any (by decide +kernel)
  have hdeclared : ∀ g ∈ u.functions, ∀ s ∈ o.declaration? g.source,
      IsName g.symbol ∧ s.HasNamedResult := by
    intro g hg s hs
    rw [hsources g hg]
    exact isName_of_declaration? hread hwords hs
  obtain ⟨p, hp, hfind, u', hu', htext, -, hinfo⟩ :=
    @convert_of_goDeclarations o _ "stubs" _ (by decide) hwords hu (by rw [hsymbols]; decide) hplain
      hdeclared
  exact ⟨u, p, u', hu, hsymbols, fun g hg s hs => ⟨hplain g hg s hs, hdeclared g hg s hs⟩, hp, hfind,
    hu', htext, hinfo⟩

/-- The name of the declared result begins with an underscore, and is read back as that of a result
without a name. A function whose symbol is no name is declared, and its declaration is not read
back. -/
theorem not_convert_of_goDeclarations :
    let text := String.join [
      "f: push rbp\n", "mov rbp, rsp\n", "mov rax, rdi\n", "leave\n", "ret\n",
      "h.cold: push rbp\n", "mov rbp, rsp\n", "inc qword ptr [rdi]\n", "leave\n", "ret\n"]
    let f : Signature := { name := "_f", args := [⟨"a", "int"⟩], result := some ⟨"_r", "int"⟩ }
    let h : Signature := { name := "_h.cold", args := [⟨"p", "*int"⟩, ⟨"n", "int"⟩] }
    ∀ declared ∈ [f, h], ∃ u p u', convert { prototypes := ⟨[declared]⟩ } text = .ok u ∧
      u.functions.map (·.symbol) = ["_f", "_h.cold"] ∧
      (∀ g ∈ u.functions, g.signature.IsPlain) ∧
      Prototypes.read (u.goDeclarations "main") = .ok p ∧
      convert { prototypes := p } text = .ok u' ∧ u'.text ≠ u.text := by
  intro text f h
  -- What is read back: `f` with another name of its result, and what is discovered for `f`.
  let back : List (Signature × Prototypes) := [(f, ⟨[{ f with result := some ⟨"ret", "int"⟩ }]⟩),
    (h, ⟨[{ name := "_f", args := [⟨"arg1", "unsafe.Pointer"⟩] }]⟩)]
  have hback : ∀ q ∈ back, ∃ u, convert { prototypes := ⟨[q.1]⟩ } text = .ok u ∧
      u.functions.map (·.symbol) = ["_f", "_h.cold"] ∧
      (∀ g ∈ u.functions, g.signature.IsPlain) ∧
      Prototypes.read (u.goDeclarations "main") = .ok q.2 ∧
      (convert { prototypes := q.2 } text).toOption.any
        (fun u' => decide (u'.text ≠ u.text)) = true := by
    refine List.forall_mem_cons.mpr ⟨exists_ok_of_any ?_,
      List.forall_mem_singleton.mpr (exists_ok_of_any ?_)⟩ <;> decide +kernel
  intro declared hdeclared
  obtain ⟨q, hq, rfl⟩ : ∃ q ∈ back, q.1 = declared := List.mem_map.mp hdeclared
  obtain ⟨u, hu, hsymbols, hplain, hp, hagain⟩ := hback q hq
  obtain ⟨u', hu', hne⟩ := exists_ok_of_any hagain
  exact ⟨u, q.2, u', hu, hsymbols, hplain, hp, hu', hne⟩

end Declared

end AsmBridge
