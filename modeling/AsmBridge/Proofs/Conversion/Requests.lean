import AsmBridge.Proofs.Conversion.Constants
import AsmBridge.Proofs.Pool.Alignment

/-!
# What functions request of the pool

A function lacks data if the index has none for an address relative to the instruction pointer; its
defect is that of the first such address (`requireAll_snd`). What is added to the symbol and how
many bytes are accessed has no part in this. Where labels name one function each, a function has a
defect in its unit if it has one by itself (`lookup_requireConstants`). If none has, the pool is
that of the uses of data by all of them (`foldl_requireFunction_eq_withUses`).
-/

namespace AsmBridge

/-! ## Defects -/

/-- The defect of an address whose data the index lacks. -/
def DataIndex.missing? (x : DataIndex) (f : SourceFunction) (q : Instruction × Address) :
    Option Diagnostic :=
  if q.2.ripRelative then
    match x.lookup q.2.symbol with
    | .ok _ => none
    | .error d =>
      some { defect := d, function := some f.name, line := q.1.line, construct := q.2.symbol }
  else none

/-- The defect of a function whose data the index lacks: that of the first address without data. -/
def DataIndex.lacks (x : DataIndex) (f : SourceFunction) : Option Diagnostic :=
  f.addresses.findSome? (x.missing? f)

section Defects

variable {x : DataIndex} {f : SourceFunction}

lemma requireAddress_eq (p : Pool) (q : Instruction × Address) :
    match x.missing? f q with
    | some d => requireAddress x f p q = .error d
    | none => ∃ p', requireAddress x f p q = .ok p' := by
  obtain ⟨i, a⟩ := q
  rw [DataIndex.missing?, requireAddress, DataIndex.lookupFor]
  cases a.ripRelative with
  | false => exact ⟨p, rfl⟩
  | true =>
    cases x.lookup a.symbol with
    | ok b => exact ⟨_, rfl⟩
    | error d => rfl

/-- The defect of a row of requests is that of the first one without data. -/
lemma requireAll_snd {p : Pool} {ps : List (Instruction × Address)} :
    (requireAll x f p ps).2 = ps.findSome? (x.missing? f) := by
  induction ps generalizing p with
  | nil => rfl
  | cons q ps ih =>
    have hq := requireAddress_eq (x := x) (f := f) p q
    rw [requireAll, List.findSome?_cons]
    cases hd : x.missing? f q with
    | some d =>
      rw [hd] at hq
      dsimp only at hq
      rw [hq]
    | none =>
      rw [hd] at hq
      obtain ⟨p', hp'⟩ := hq
      rw [hp']
      exact ih

/-- The defects by label behind one function more. -/
lemma requireFunction_snd (acc : Pool × List (String × Diagnostic)) (f : SourceFunction) :
    (requireFunction x acc f).2 = ((x.lacks f).map fun d => (f.label, d)).toList ++ acc.2 := by
  rw [requireFunction, requireAll_snd]
  rfl

/-- Functions with other labels add nothing under a label. -/
lemma lookup_foldl_of_notMem {fs : List SourceFunction} {l : String}
    (h : l ∉ fs.map (·.label)) (acc : Pool × List (String × Diagnostic)) :
    (fs.foldl (requireFunction x) acc).2.lookup l = acc.2.lookup l := by
  induction fs generalizing acc with
  | nil => rfl
  | cons f fs ih =>
    rw [List.map_cons, List.mem_cons, not_or] at h
    rw [List.foldl_cons, ih h.2, requireFunction_snd]
    cases x.lacks f with
    | none => rfl
    | some d =>
      rw [Option.map_some, Option.toList_some, List.singleton_append, List.lookup_cons,
        beq_eq_false_iff_ne.mpr h.1]

/-- What is found under the label of a function, if labels name one function each: its own defect,
or else what was there before. -/
lemma lookup_foldl_requireFunction {fs : List SourceFunction}
    (hnodup : (fs.map (·.label)).Nodup) (hf : f ∈ fs)
    (acc : Pool × List (String × Diagnostic)) :
    (fs.foldl (requireFunction x) acc).2.lookup f.label =
      (x.lacks f).or (acc.2.lookup f.label) := by
  induction fs generalizing acc with
  | nil => cases hf
  | cons g fs ih =>
    rw [List.map_cons, List.nodup_cons] at hnodup
    obtain ⟨hg, hnodup⟩ := hnodup
    rw [List.foldl_cons]
    rcases List.mem_cons.mp hf with rfl | hf
    · rw [lookup_foldl_of_notMem hg, requireFunction_snd, List.lookup_append]
      cases x.lacks f with
      | none => rfl
      | some d => simp
    · have hne : f.label ≠ g.label := fun heq => hg (List.mem_map.mpr ⟨f, hf, heq⟩)
      rw [ih hnodup hf, requireFunction_snd]
      cases x.lacks g with
      | none => rfl
      | some d =>
        rw [Option.map_some, Option.toList_some, List.singleton_append, List.lookup_cons,
          beq_eq_false_iff_ne.mpr hne]

/-- A function has a defect in its unit if it has one by itself, provided that labels name one
function each. -/
lemma lookup_requireConstants {fs : List SourceFunction} (hnodup : (fs.map (·.label)).Nodup)
    (hf : f ∈ fs) (name : String) :
    (requireConstants x name fs).2.lookup f.label = x.lacks f := by
  rw [requireConstants_eq, lookup_foldl_requireFunction hnodup hf]
  exact Option.or_none

end Defects

/-! ## Uses -/

/-- The uses of data by addresses relative to the instruction pointer. -/
def DataIndex.usesOf (x : DataIndex) (ps : List (Instruction × Address)) : List Pool.Use :=
  ps.filterMap fun q =>
    if q.2.ripRelative then (x.lookup q.2.symbol).toOption.map fun b => (b, q.2.accessBytes)
    else none

/-- The uses of data by functions. -/
def DataIndex.uses (x : DataIndex) (functions : List SourceFunction) : List Pool.Use :=
  functions.flatMap fun f => x.usesOf f.addresses

section Uses

variable {x : DataIndex}

lemma mem_usesOf {ps : List (Instruction × Address)} {u : Pool.Use} :
    u ∈ x.usesOf ps ↔ ∃ q ∈ ps, q.2.ripRelative = true ∧ x.lookup q.2.symbol = .ok u.1 ∧
      u.2 = q.2.accessBytes := by
  rw [DataIndex.usesOf, List.mem_filterMap]
  refine exists_congr fun q => and_congr_right fun _ => ?_
  cases q.2.ripRelative with
  | false => simp
  | true =>
    cases x.lookup q.2.symbol with
    | error d => simp [Except.toOption]
    | ok b =>
      rw [if_pos rfl, Except.toOption, Option.map_some, Option.some.injEq, Prod.ext_iff]
      simp [eq_comm]

lemma mem_uses {functions : List SourceFunction} {u : Pool.Use} :
    u ∈ x.uses functions ↔ ∃ f ∈ functions, ∃ i ∈ f.instructions, ∃ a ∈ i.addresses,
      a.ripRelative = true ∧ x.lookup a.symbol = .ok u.1 ∧ u.2 = a.accessBytes := by
  rw [DataIndex.uses, List.mem_flatMap]
  refine exists_congr fun f => and_congr_right fun _ => ?_
  rw [mem_usesOf]
  constructor
  · rintro ⟨⟨i, a⟩, hq, hu⟩
    obtain ⟨hi, ha⟩ := SourceFunction.mem_addresses.mp hq
    exact ⟨i, hi, a, ha, hu⟩
  · rintro ⟨i, hi, a, ha, hu⟩
    exact ⟨(i, a), SourceFunction.mem_addresses.mpr ⟨hi, ha⟩, hu⟩

/-- An access has a width. -/
lemma accessBytes_pos (a : Address) : 0 < a.accessBytes := by
  rw [Address.accessBytes]
  split
  · exact Nat.one_pos
  · exact lt_max_of_lt_right Nat.one_pos

/-- Requests that find all their data add the uses of them to the pool. -/
lemma requireAll_eq_withUses {f : SourceFunction} {ps : List (Instruction × Address)} {p : Pool}
    (h : (requireAll x f p ps).2 = none) :
    (requireAll x f p ps).1 = p.withUses (x.usesOf ps) := by
  induction ps generalizing p with
  | nil => rfl
  | cons q ps ih =>
    rw [requireAll] at h ⊢
    split at h
    · rename_i p' hp'
      rw [ih h]
      rcases requireAddress_eq_ok_iff.mp hp' with ⟨hrip, rfl⟩ | ⟨hrip, b, hb, rfl⟩
      · simp [DataIndex.usesOf, hrip]
      · simp [DataIndex.usesOf, hrip, hb, Except.toOption, Pool.withUses]
    · cases h

/-- The pool of functions without a defect is that of their uses. -/
lemma foldl_requireFunction_eq_withUses {fs : List SourceFunction}
    {acc : Pool × List (String × Diagnostic)}
    (h : ∀ f ∈ fs, (fs.foldl (requireFunction x) acc).2.lookup f.label = none) :
    (fs.foldl (requireFunction x) acc).1 = acc.1.withUses (x.uses fs) := by
  induction fs generalizing acc with
  | nil => rfl
  | cons f rest ih =>
    obtain ⟨hf, hrest⟩ := List.forall_mem_cons.mp h
    have hnone : (requireFunction x acc f).2.lookup f.label = none :=
      foldl_requireFunction_lookup hf
    have hfound : (requireAll x f acc.1 f.addresses).2 = none := by
      cases hd : (requireAll x f acc.1 f.addresses).2 with
      | none => rfl
      | some d => simp [requireFunction, hd] at hnone
    have hfirst : (requireFunction x acc f).1 = acc.1.withUses (x.usesOf f.addresses) :=
      requireAll_eq_withUses hfound
    rw [List.foldl_cons, ih hrest, hfirst, ← Pool.withUses_append]
    rfl

end Uses

end AsmBridge
