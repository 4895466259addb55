import AsmBridge.Prototype
import AsmBridge.Proofs.Text.Words
import Mathlib.Data.List.Forall2

/-!
# Groups of parameters

Parameters that share a type form a group: their names stand between commas, and the type stands
behind the last name. A list in which some part has a type consists of groups and perhaps of names
behind them, for which no type is left (`exists_groups`). It is read as the parameters of its groups
if there are no such names, and not at all otherwise (`readParameters_of_rows`).
-/

namespace AsmBridge

/-- Parameters that share a type: their names, the last one apart, and the words of the type. -/
structure ParameterGroup where
  before : List (List Char)
  name : List Char
  kind : List (List Char)
  kind_ne_nil : kind ≠ []

namespace ParameterGroup

/-- The words of the parts between commas: a name alone in each but the last one, which has the
last name and the type. -/
def rows (g : ParameterGroup) : List (List (List Char)) := g.before.map ([·]) ++ [g.name :: g.kind]

/-- The type, with single spaces between its words. -/
def type (g : ParameterGroup) : String := String.intercalate " " (g.kind.map String.ofList)

/-- The names with the type of the group. -/
def parameters (g : ParameterGroup) : List (String × String) :=
  (g.before ++ [g.name]).map fun n => (String.ofList n, g.type)

/-- Each part has a word. -/
lemma ne_nil_of_mem_rows {g : ParameterGroup} {ws : List (List Char)} (h : ws ∈ g.rows) :
    ws ≠ [] := by
  rcases List.mem_append.mp h with h | h
  · obtain ⟨n, -, rfl⟩ := List.mem_map.mp h
    exact List.cons_ne_nil _ _
  · rw [List.mem_singleton.mp h]
    exact List.cons_ne_nil _ _

/-- The last part has the last name and the type. -/
lemma getLast?_rows (g : ParameterGroup) : g.rows.getLast? = some (g.name :: g.kind) :=
  List.getLast?_concat

end ParameterGroup

variable {s part name : List Char} {parts rest names kind : List (List Char)}
  {pending : List String} {rows : List (List (List Char))} {g : ParameterGroup}
  {gs : List ParameterGroup}

/-! ## The parts of a list -/

/-- The words of the parts of a list, without those of blank parts. -/
def parameterRows (s : List Char) : List (List (List Char)) :=
  ((s.splitOn ',').map Text.words).filter (· ≠ [])

/-- Some part of the list has more than one word. -/
def HasTypedPart (s : List Char) : Prop :=
  ∃ part ∈ s.splitOn ',', ∃ ws, Text.IsWordRow ws part ∧ 1 < ws.length

/-- The last part of the list that is not blank is a single word. -/
def EndsInName (s : List Char) : Prop :=
  ∃ front part back w, s.splitOn ',' = front ++ part :: back ∧ Text.IsWordRow [w] part ∧
    ∀ p ∈ back, ∀ c ∈ p, Text.isBlank c = true

lemma map_words_parameterParts (s : List Char) :
    (parameterParts s).map Text.words = parameterRows s := by
  have hkept : ∀ p : List Char, (!(Text.trim p).isEmpty) = decide (Text.words p ≠ []) := by
    intro p
    rw [Bool.eq_iff_iff, Bool.not_eq_true', List.isEmpty_eq_false_iff, decide_eq_true_iff,
      not_iff_not, Text.trim_eq_nil_iff, Text.words_eq_nil_iff]
  have hwords : ∀ p : List Char, (Text.words ∘ Text.trim) p = Text.words p := Text.words_trim
  rw [parameterParts, parameterRows, List.filter_map, List.filter_map, List.map_map,
    List.map_congr_left fun p _ => hwords p]
  exact congrArg _ (List.filter_congr fun p _ => hkept p)

lemma hasTypedPart_iff : HasTypedPart s ↔ ∃ ws ∈ parameterRows s, 1 < ws.length := by
  constructor
  · rintro ⟨part, hpart, ws, hws, hlength⟩
    refine ⟨ws, List.mem_filter.mpr ⟨List.mem_map.mpr ⟨part, hpart, hws.words_eq⟩, ?_⟩, hlength⟩
    exact decide_eq_true (List.ne_nil_of_length_pos (by omega))
  · rintro ⟨ws, hws, hlength⟩
    obtain ⟨part, hpart, hwords⟩ := List.mem_map.mp (List.mem_filter.mp hws).1
    exact ⟨part, hpart, ws, Text.words_eq_iff.mp hwords, hlength⟩

lemma endsInName_iff : EndsInName s ↔ (parameterRows s).getLast?.map List.length = some 1 := by
  constructor
  · rintro ⟨front, part, back, w, hs, hpart, hback⟩
    have hnone : (back.map Text.words).filter (· ≠ []) = [] := by
      rw [List.filter_eq_nil_iff]
      intro ws hws
      obtain ⟨p, hp, rfl⟩ := List.mem_map.mp hws
      simpa using Text.words_eq_nil_iff.mpr (hback p hp)
    rw [parameterRows, hs, List.map_append, List.map_cons, hpart.words_eq, List.filter_append,
      List.filter_cons_of_pos (by simp), hnone, List.getLast?_concat]
    rfl
  · intro h
    obtain ⟨ws, hlast, hlength⟩ := Option.map_eq_some_iff.mp h
    obtain ⟨w, rfl⟩ := List.length_eq_one_iff.mp hlength
    obtain ⟨before, hrows⟩ := List.getLast?_eq_some_iff.mp hlast
    obtain ⟨front, tail, hsplit, -, htail⟩ := List.filter_eq_append_iff.mp hrows
    obtain ⟨blanks, behind, rfl, -, -, hbehind⟩ := List.filter_eq_cons_iff.mp htail
    rw [← List.append_assoc] at hsplit
    obtain ⟨front', tail', hs, -, htail'⟩ := List.map_eq_append_iff.mp hsplit
    obtain ⟨part, back, rfl, hpart, rfl⟩ := List.map_eq_cons_iff.mp htail'
    refine ⟨front', part, back, w, hs, Text.words_eq_iff.mp hpart, fun p hp => ?_⟩
    have hempty := List.filter_eq_nil_iff.mp hbehind _ (List.mem_map.mpr ⟨p, hp, rfl⟩)
    exact Text.words_eq_nil_iff.mp (by simpa using hempty)

instance : Decidable (HasTypedPart s) := decidable_of_iff _ hasTypedPart_iff.symm

instance : Decidable (EndsInName s) := decidable_of_iff _ endsInName_iff.symm

/-- The parts of a list are those that were joined by commas. -/
lemma parameterRows_intercalate (h : List.Forall₂ Text.IsWordRow rows parts)
    (hrows : ∀ ws ∈ rows, ws ≠ []) (hcomma : ∀ part ∈ parts, ',' ∉ part) :
    parameterRows ([','].intercalate parts) = rows := by
  have hwords : parts.map Text.words = rows := by
    clear hrows hcomma
    induction h with
    | nil => rfl
    | cons hpart _ ih => rw [List.map_cons, hpart.words_eq, ih]
  by_cases hne : parts = []
  · rw [← hwords, hne]
    rfl
  · rw [parameterRows, List.splitOn_intercalate ',' hcomma hne, hwords, List.filter_eq_self]
    exact fun ws hws => decide_eq_true (hrows ws hws)

/-! ## Groups and names behind them -/

/-- Parts with words, none of them empty, are those of groups and of names behind them. -/
lemma exists_groups (h : ∀ ws ∈ rows, ws ≠ []) :
    ∃ (gs : List ParameterGroup) (names : List (List Char)),
      rows = gs.flatMap ParameterGroup.rows ++ names.map ([·]) := by
  induction rows with
  | nil => exact ⟨[], [], rfl⟩
  | cons ws rows ih =>
    obtain ⟨hws, hrows⟩ := List.forall_mem_cons.mp h
    obtain ⟨gs, names, rfl⟩ := ih hrows
    obtain ⟨name, kind, rfl⟩ := List.exists_cons_of_ne_nil hws
    by_cases hkind : kind = []
    · subst hkind
      -- a name alone goes to the next group, if there is one
      cases gs with
      | nil => exact ⟨[], name :: names, rfl⟩
      | cons g gs => exact ⟨{ g with before := name :: g.before } :: gs, names, rfl⟩
    · exact ⟨⟨[], name, kind, hkind⟩ :: gs, names, rfl⟩

/-- Groups end in a name alone just if there are names behind them. -/
lemma getLast?_groups_iff (hgs : gs ≠ []) :
    (gs.flatMap ParameterGroup.rows ++ names.map ([·])).getLast?.map List.length = some 1 ↔
      names ≠ [] := by
  rcases List.eq_nil_or_concat' names with rfl | ⟨others, name, rfl⟩
  · obtain ⟨front, g, rfl⟩ := (List.eq_nil_or_concat' gs).resolve_left hgs
    have hlast := g.getLast?_rows
    simp [List.getLast?_append, hlast, g.kind_ne_nil]
  · rw [List.map_append, List.map_singleton, ← List.append_assoc, List.getLast?_concat]
    simp

/-! ## Reading -/

/-- What is read of groups with names behind them. -/
def groupOutcome (gs : List ParameterGroup) (names : List (List Char)) :
    Except Stop (List (String × String)) :=
  if names = [] then .ok (gs.flatMap ParameterGroup.parameters)
  else .error (.parametersUntyped (names.map String.ofList))

/-- Names alone wait for a type. -/
lemma typedParameters_names (h : parts.map Text.words = names.map ([·])) :
    typedParameters pending (parts ++ rest) =
      typedParameters ((names.map String.ofList).reverse ++ pending) rest := by
  induction names generalizing parts pending with
  | nil =>
    rw [List.map_eq_nil_iff.mp h]
    rfl
  | cons name names ih =>
    obtain ⟨part, parts, rfl, hpart, hparts⟩ := List.map_eq_cons_iff.mp h
    rw [List.cons_append, typedParameters, hpart]
    simp only [List.map_cons, List.map_nil]
    rw [ih hparts, List.reverse_cons, List.append_assoc, List.singleton_append]

/-- A part with a type gives it to its name and to those that wait. -/
lemma typedParameters_typed (h : Text.words part = name :: kind) (hkind : kind ≠ []) :
    typedParameters pending (part :: rest) = (typedParameters [] rest).map
      (((String.ofList name :: pending).reverse.map fun n =>
        (n, String.intercalate " " (kind.map String.ofList))) ++ ·) := by
  obtain ⟨first, more, rfl⟩ := List.exists_cons_of_ne_nil hkind
  rw [typedParameters, h]
  rfl

/-- The parameters of a group are read before those of the rest. -/
lemma typedParameters_group (h : parts.map Text.words = g.rows) :
    typedParameters [] (parts ++ rest) = (typedParameters [] rest).map (g.parameters ++ ·) := by
  obtain ⟨before, typed, rfl, hbefore, htyped⟩ := List.map_eq_append_iff.mp h
  obtain ⟨part, rfl, hpart⟩ := List.map_eq_singleton_iff.mp htyped
  have hnames : (String.ofList g.name :: ((g.before.map String.ofList).reverse ++ [])).reverse =
      (g.before ++ [g.name]).map String.ofList := by
    rw [List.append_nil, List.reverse_cons, List.reverse_reverse, List.map_append,
      List.map_singleton]
  rw [List.append_assoc, typedParameters_names hbefore, List.singleton_append,
    typedParameters_typed hpart g.kind_ne_nil, hnames, List.map_map]
  rfl

/-- Groups are read one after the other, and names behind them are left without a type. -/
lemma typedParameters_groups
    (h : parts.map Text.words = gs.flatMap ParameterGroup.rows ++ names.map ([·])) :
    typedParameters [] parts = groupOutcome gs names := by
  induction gs generalizing parts with
  | nil =>
    have hread : typedParameters [] (parts ++ []) =
        typedParameters ((names.map String.ofList).reverse ++ []) [] := typedParameters_names h
    rw [List.append_nil, List.append_nil] at hread
    rw [hread, typedParameters, groupOutcome, List.reverse_reverse]
    simp
  | cons g gs ih =>
    rw [List.flatMap_cons, List.append_assoc] at h
    obtain ⟨first, others, rfl, hfirst, hothers⟩ := List.map_eq_append_iff.mp h
    rw [typedParameters_group hfirst, ih hothers, groupOutcome, groupOutcome]
    split
    · rfl
    · rfl

/-- A list with a group is read by its groups and the names behind them. -/
lemma readParameters_of_rows
    (h : parameterRows s = gs.flatMap ParameterGroup.rows ++ names.map ([·])) (hgs : gs ≠ []) :
    readParameters s = groupOutcome gs names := by
  have hparts := (map_words_parameterParts s).trans h
  have htyped : (parameterParts s).any (fun p => 1 < (Text.words p).length) = true := by
    obtain ⟨g, more, rfl⟩ := List.exists_cons_of_ne_nil hgs
    have hmem : g.name :: g.kind ∈ (parameterParts s).map Text.words := by
      rw [hparts]
      simp [ParameterGroup.rows]
    obtain ⟨part, hpart, hwords⟩ := List.mem_map.mp hmem
    have hlength : 1 < (Text.words part).length := by
      rw [hwords, List.length_cons]
      exact Nat.lt_add_of_pos_left (List.length_pos_iff.mpr g.kind_ne_nil)
    exact List.any_eq_true.mpr ⟨part, hpart, decide_eq_true hlength⟩
  rw [readParameters, if_pos htyped, typedParameters_groups hparts]

/-- Groups of parameters that are joined by commas are read as their names, each one with the type
of its group. A list in which some part has a type is read unless it ends in a name without one. -/
theorem readParameters_groups :
    (∀ (gs : List ParameterGroup) (parts : List (List Char)),
      List.Forall₂ Text.IsWordRow (gs.flatMap ParameterGroup.rows) parts →
      (∀ part ∈ parts, ',' ∉ part) →
      readParameters ([','].intercalate parts) = .ok (gs.flatMap ParameterGroup.parameters)) ∧
    ∀ s : List Char, HasTypedPart s →
      ((∃ names, readParameters s = .error (.parametersUntyped names)) ↔ EndsInName s) ∧
      ((∃ params, readParameters s = .ok params) ↔ ¬EndsInName s) := by
  constructor
  · intro gs parts hparts hcomma
    have hrows : ∀ ws ∈ gs.flatMap ParameterGroup.rows, ws ≠ [] := by
      intro ws hws
      obtain ⟨g, -, hws⟩ := List.mem_flatMap.mp hws
      exact ParameterGroup.ne_nil_of_mem_rows hws
    have hread : parameterRows ([','].intercalate parts) =
        gs.flatMap ParameterGroup.rows ++ [].map ([·]) := by
      rw [parameterRows_intercalate hparts hrows hcomma, List.map_nil, List.append_nil]
    by_cases hgs : gs = []
    · subst hgs
      rw [List.forall₂_nil_left_iff.mp hparts]
      rfl
    · exact readParameters_of_rows hread hgs
  · intro s hs
    have hrows : ∀ ws ∈ parameterRows s, ws ≠ [] := fun ws hws =>
      of_decide_eq_true (List.mem_filter.mp hws).2
    obtain ⟨gs, names, heq⟩ := exists_groups hrows
    have hgs : gs ≠ [] := by
      rintro rfl
      obtain ⟨ws, hws, hlength⟩ := hasTypedPart_iff.mp hs
      rw [heq] at hws
      obtain ⟨name, -, rfl⟩ := List.mem_map.mp hws
      exact absurd hlength (by simp)
    rw [readParameters_of_rows heq hgs, endsInName_iff, heq, getLast?_groups_iff hgs]
    by_cases hnames : names = []
    · simp [groupOutcome, hnames]
    · simp [groupOutcome, hnames]

/-- Two groups with blanks of several kinds, a list that ends in names and a blank part, and one
that does not. -/
theorem readParameters_groups_of_pointers :
    readParameters "a , b\tunsafe.Pointer,\n x  [4]  float64 ".toList =
        .ok [("a", "unsafe.Pointer"), ("b", "unsafe.Pointer"), ("x", "[4] float64")] ∧
      EndsInName "n int, a, b, ".toList ∧
      (∃ names, readParameters "n int, a, b, ".toList = .error (.parametersUntyped names)) ∧
      ¬EndsInName "a, b int, ".toList ∧
      ∃ params, readParameters "a, b int, ".toList = .ok params := by
  let gs : List ParameterGroup := [
    ⟨["a".toList], "b".toList, ["unsafe.Pointer".toList], by decide⟩,
    ⟨[], "x".toList, ["[4]".toList, "float64".toList], by decide⟩]
  let parts : List (List Char) :=
    ["a ".toList, " b\tunsafe.Pointer".toList, "\n x  [4]  float64 ".toList]
  have hparts : List.Forall₂ Text.IsWordRow (gs.flatMap ParameterGroup.rows) parts :=
    .cons (by decide) (.cons (by decide) (.cons (by decide) .nil))
  have hends : EndsInName "n int, a, b, ".toList := by decide
  have hreads : ¬EndsInName "a, b int, ".toList := by decide
  refine ⟨?_, hends, ?_, hreads, ?_⟩
  · have hread := readParameters_groups.1 gs parts hparts (by decide)
    have hparams : gs.flatMap ParameterGroup.parameters =
        [("a", "unsafe.Pointer"), ("b", "unsafe.Pointer"), ("x", "[4] float64")] := by decide
    rw [hparams] at hread
    exact hread
  · exact (readParameters_groups.2 _ (by decide)).1.mpr hends
  · exact (readParameters_groups.2 _ (by decide)).2.mpr hreads

end AsmBridge
