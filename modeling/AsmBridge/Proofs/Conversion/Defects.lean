import AsmBridge.Proofs.Conversion.Requests
import AsmBridge.Proofs.Conversion.Unit

/-!
# The defects of a unit

Where labels name one function each, the defects of a unit are those of its functions, one function
after another: of each function that of the data it lacks, or else those of its conversion. A unit
without defects is converted, with one conversion for each of its functions (`convert_cases`).
-/

namespace AsmBridge

/-- The defects of a function: that of the data it lacks, or else those of its conversion. -/
def UnitContext.defects (c : UnitContext) (x : DataIndex) (f : SourceFunction) : List Diagnostic :=
  match x.lacks f with
  | some d => [d]
  | none =>
    match convertFunction c f with
    | .ok (.error ds) => ds
    | _ => []

/-- The defects that an outcome reports. -/
def reported : Except (List Diagnostic) ConvertedFunction → List Diagnostic
  | .ok _ => []
  | .error ds => ds

/-- The defects among outcomes are those of each, in order. -/
lemma divide_fst (outs : List (Except (List Diagnostic) ConvertedFunction)) :
    (divide outs).1 = outs.flatMap reported := by
  induction outs with
  | nil => rfl
  | cons r rest ih =>
    rw [divide, List.flatMap_cons, ← ih]
    cases r <;> rfl

/-- Functions with the same label are the same, if labels name one function each. -/
lemma eq_of_label_eq {functions : List SourceFunction}
    (hnodup : (functions.map (·.label)).Nodup) {f g : SourceFunction} (hf : f ∈ functions)
    (hg : g ∈ functions) (h : f.label = g.label) : f = g :=
  List.inj_on_of_nodup_map hnodup hf hg h

section Outcomes

variable {o : Options} {x : DataIndex} {functions : List SourceFunction}
  {results : List (Except (List Diagnostic) ConvertedFunction)}

/-- The functions that are converted: those that do not lack data. -/
lemma todo_eq (hnodup : (functions.map (·.label)).Nodup) :
    todo o x functions = functions.filter fun f => (x.lacks f).isNone := by
  refine List.filter_congr fun f hf => ?_
  rw [lookup_requireConstants hnodup hf]

/-- The outcome of a function is its own, if labels name one function each. -/
lemma outcome_eq (hnodup : (functions.map (·.label)).Nodup) {c : UnitContext}
    (hresults : (todo o x functions).mapM (convertFunction c) = .ok results) {f : SourceFunction}
    (hf : f ∈ functions) :
    (x.lacks f = none → ∃ r, convertFunction c f = .ok r) ∧
      reported (outcome (requireConstants x o.poolName functions).2
        (((todo o x functions).map (·.label)).zip results) f) = c.defects x f := by
  rw [outcome, lookup_requireConstants hnodup hf, UnitContext.defects]
  cases hlacks : x.lacks f with
  | some d => exact ⟨fun h => absurd h (Option.some_ne_none _), rfl⟩
  | none =>
    have hmem : f ∈ todo o x functions := by
      rw [todo_eq hnodup, List.mem_filter]
      exact ⟨hf, by simp [hlacks]⟩
    cases hlookup : (((todo o x functions).map (·.label)).zip
        results).reverse.lookup f.label with
    | none => exact absurd hlookup (lookup_ne_none hresults hmem)
    | some r =>
      obtain ⟨g, hg, hlabel, hconvert⟩ := exists_of_lookup hresults hlookup
      obtain rfl := eq_of_label_eq hnodup (List.mem_filter.mp hg).1 hf hlabel
      rw [hconvert]
      refine ⟨fun _ => ⟨r, rfl⟩, ?_⟩
      cases r <;> rfl

end Outcomes

/-! ## Answers -/

/-- The defects that a conversion reports. -/
def defectsOf : Except Failure ConvertedUnit → List Diagnostic
  | .error (.defects _ ds) => ds
  | _ => []

/-- The conversion is not given up. -/
def isAnswer : Except Failure ConvertedUnit → Bool
  | .error (.fault _) => false
  | _ => true

lemma ne_fault_of_isAnswer {r : Except Failure ConvertedUnit} (h : isAnswer r = true)
    (fault : Fault) : r ≠ .error (.fault fault) := by
  rintro rfl
  cases h

section Unit

variable {o : Options} {text : String} {functions : List SourceFunction} {x : DataIndex}

/-- How the conversion of a unit ends, unless it is given up: every function that does not lack data
has a result, and either there are defects among the outcomes and they are reported, or there are
none and the unit is converted. -/
lemma exists_results_of_convert (hread : readFunctions text = .ok (functions, x))
    (hfault : ∀ fault, convert o text ≠ .error (.fault fault)) :
    ∃ results ds,
      (todo o x functions).mapM (convertFunction (unitContext o x functions)) = .ok results ∧
      ds = (divide (outcomes o x functions results)).1 ∧
      ((ds ≠ [] ∧ convert o text = .error (.defects o.file ds)) ∨
        (ds = [] ∧ ∃ u, convert o text = .ok u)) := by
  rw [convert_of_readFunctions hread] at hfault ⊢
  dsimp only [convertRead] at hfault ⊢
  split_ifs at hfault ⊢
  · exact absurd rfl (hfault _)
  · exact absurd rfl (hfault _)
  cases hresults : (todo o x functions).mapM (convertFunction (unitContext o x functions)) with
  | error fault =>
    rw [hresults] at hfault
    exact absurd rfl (hfault fault)
  | ok results =>
    refine ⟨results, _, rfl, rfl, ?_⟩
    rw [hresults] at hfault
    change ∀ fault, ite _ _ _ ≠ _ at hfault
    change (_ ∧ ite _ _ _ = _) ∨ _ ∧ ∃ u, ite _ _ _ = _
    split_ifs at hfault ⊢ with hds
    · exact .inl ⟨by simpa using hds, rfl⟩
    · refine .inr ⟨by simpa using hds, ?_⟩
      cases hlisting : renderUnit o.style (unitContext o x functions).pool
          (divide (outcomes o x functions results)).2 with
      | error s =>
        rw [hlisting] at hfault
        exact absurd rfl (hfault (.stop s))
      | ok listing => exact ⟨_, rfl⟩

/-- How the conversion of a unit ends where labels name one function each, unless it is given up:
with the defects of all its functions, or, if there are none, with a conversion. -/
lemma convert_cases (hread : readFunctions text = .ok (functions, x))
    (hnodup : (functions.map (·.label)).Nodup)
    (hfault : ∀ fault, convert o text ≠ .error (.fault fault)) :
    (∀ f ∈ functions, x.lacks f = none →
      ∃ r, convertFunction (unitContext o x functions) f = .ok r) ∧
    ∃ ds, ds = functions.flatMap ((unitContext o x functions).defects x) ∧
      ((ds ≠ [] ∧ convert o text = .error (.defects o.file ds)) ∨
        (ds = [] ∧ ∃ u, convert o text = .ok u)) := by
  obtain ⟨results, ds, hresults, rfl, hends⟩ := exists_results_of_convert hread hfault
  have houtcome := fun {f} (hf : f ∈ functions) => outcome_eq hnodup hresults hf
  refine ⟨fun f hf => (houtcome hf).1, _, ?_, hends⟩
  rw [divide_fst, outcomes, List.flatMap_map]
  exact List.flatMap_congr fun f hf => (houtcome hf).2

/-- Where labels name one function each, a conversion that is not given up reports the defects of
the functions, one function after another. -/
lemma defectsOf_convert (hread : readFunctions text = .ok (functions, x))
    (hnodup : (functions.map (·.label)).Nodup)
    (hfault : ∀ fault, convert o text ≠ .error (.fault fault)) :
    defectsOf (convert o text) = functions.flatMap ((unitContext o x functions).defects x) := by
  obtain ⟨-, ds, rfl, ⟨-, heq⟩ | ⟨hnil, u, heq⟩⟩ := convert_cases hread hnodup hfault
  · rw [heq]
    rfl
  · rw [heq, hnil]
    rfl

/-- The functions of a converted unit are those of the source, if labels name one function each. -/
lemma map_source_of_convert (hread : readFunctions text = .ok (functions, x))
    (hnodup : (functions.map (·.label)).Nodup) {u : ConvertedUnit} (h : convert o text = .ok u) :
    u.functions.map (·.source) = functions := by
  obtain ⟨functions', x', hread', -, -, hfs, -⟩ := exists_context_of_convert h
  obtain ⟨rfl, rfl⟩ := Prod.mk.inj (Except.ok.inj (hread'.symm.trans hread))
  have hall : List.Forall₂ (fun f f' => f = f') functions' (u.functions.map (·.source)) := by
    rw [List.forall₂_map_right_iff]
    refine ((List.forall₂_and_left _ _).mpr ⟨fun f hf => hf, hfs⟩).imp ?_
    rintro f g ⟨hf, hlabel, hg, -⟩
    exact eq_of_label_eq hnodup hf hg hlabel.symm
  rw [List.forall₂_eq_eq_eq] at hall
  exact hall.symm

end Unit

end AsmBridge
