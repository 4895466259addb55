import AsmBridge.Source.Unit
import AsmBridge.Proofs.Outcome

/-!
# What a line does

A line adds its labels to the records of a unit, and then a directive, which may switch sections, or
an instruction. `State.Reads` has one case for each of these, and `State.line_eq_ok` says that this
is all a line does. What a line keeps is shown by these cases, and what its labels keep by
`State.withLabels_induction`.
-/

namespace AsmBridge.Source

/-- The line without its comment and the blanks around it. -/
def bare (source : List Char) : List Char := Text.trim (stripComment source).1

/-- What stands on a line behind its labels and before its comment. -/
def statementOf (source : List Char) : List Char :=
  (labels (Text.trim (stripComment source).1)).2

/-- The labels of a line. -/
def labelsOf (source : List Char) : List String := (labels (bare source)).1

/-- The name of the directive of a line and its arguments, if the statement of the line is one. -/
def directive? (source : List Char) : Option (String × String) :=
  match statementOf source with
  | '.' :: rest => splitDirective? ('.' :: rest)
  | _ => none

lemma labels_nil : labels [] = ([], []) := by
  rw [labels.eq_def]
  rfl

/-- A statement without a point in front is no directive. -/
lemma directive?_eq_none {source : List Char} (h : (statementOf source).head? ≠ some '.') :
    directive? source = none := by
  unfold directive?
  split
  · rename_i rest hrest
    rw [hrest] at h
    exact absurd rfl h
  · rfl

/-- A directive is what the statement of its line is split into. -/
lemma splitDirective?_of_directive? {source : List Char} {p : String × String}
    (h : directive? source = some p) : splitDirective? (statementOf source) = some p := by
  unfold directive? at h
  split at h
  · rename_i rest hrest
    rwa [hrest]
  · cases h

/-- The section that a directive names depends on its arguments only. -/
lemma sectionName_congr {d d' : Directive} (hargs : d'.args = d.args) {sect : String}
    (h : sectionName d = .ok sect) : sectionName d' = .ok sect := by
  have hargv : d'.argv = d.argv := by
    unfold Directive.argv
    rw [hargs]
  unfold sectionName at h ⊢
  rw [hargv]
  split
  · rename_i hnil
    rw [hnil] at h
    cases h
  · rename_i first rest hcons
    rw [hcons] at h
    exact h

namespace State

variable {s s' : State} {source : List Char} {n : ℕ}

/-- A switch of sections is no record. -/
lemma switch_records {d : Directive} {source : String} (h : s.switch d source = .ok s') :
    s'.records = s.records := by
  unfold switch at h
  split_ifs at h
  · rw [← Except.ok.inj h]
    rfl
  · obtain ⟨sect, -, rfl⟩ := map_eq_ok.mp h
    rfl
  · obtain ⟨sect, -, rfl⟩ := map_eq_ok.mp h
    rfl
  · split at h
    · rw [← Except.ok.inj h]
      rfl
    · cases h
  · split at h
    · rw [← Except.ok.inj h]
      rfl
    · rw [← Except.ok.inj h]
  · rw [← Except.ok.inj h]

/-- The state behind the labels of a line. -/
def withLabels (s : State) (source : List Char) (n : ℕ) : State :=
  (labelsOf source).foldl (·.label n ·) s

lemma foldl_label_eq (n : ℕ) (names : List String) (s : State) :
    names.foldl (·.label n ·) s =
      { s with
        records := (names.reverse.map fun name =>
          Record.label { name := name, line := some n, sect := some s.sect }) ++ s.records
        after := names.getLast?.or s.after } := by
  induction names generalizing s with
  | nil => rfl
  | cons name names ih =>
    have hlast : (name :: names).getLast?.or s.after = names.getLast?.or (some name) := by
      rw [List.getLast?_cons]
      cases names.getLast? <;> rfl
    rw [List.foldl_cons, ih, hlast, List.reverse_cons, List.map_append, List.append_assoc]
    rfl

/-- The labels of a line are recorded, in the section in effect. -/
lemma withLabels_eq (s : State) (source : List Char) (n : ℕ) :
    s.withLabels source n =
      { s with
        records := ((labelsOf source).reverse.map fun name =>
          Record.label { name := name, line := some n, sect := some s.sect }) ++ s.records
        after := (labelsOf source).getLast?.or s.after } :=
  foldl_label_eq n _ s

/-- What is kept by each label of a line is kept by all of them. -/
lemma withLabels_induction {P : State → Prop}
    (hlabel : ∀ s, ∀ name ∈ labelsOf source, P s → P (s.label n name)) (hs : P s) :
    P (s.withLabels source n) := by
  unfold withLabels
  generalize labelsOf source = names at hlabel ⊢
  induction names generalizing s with
  | nil => exact hs
  | cons name names ih =>
    exact ih (hlabel s name List.mem_cons_self hs)
      fun s name' hmem => hlabel s name' (List.mem_cons_of_mem _ hmem)

@[simp] lemma withLabels_sect (s : State) (source : List Char) (n : ℕ) :
    (s.withLabels source n).sect = s.sect := by
  rw [withLabels_eq]

@[simp] lemma withLabels_stack (s : State) (source : List Char) (n : ℕ) :
    (s.withLabels source n).stack = s.stack := by
  rw [withLabels_eq]

@[simp] lemma withLabels_previous (s : State) (source : List Char) (n : ℕ) :
    (s.withLabels source n).previous = s.previous := by
  rw [withLabels_eq]

/-- What a line does to a state: it adds its labels, and then a directive, perhaps with a switch of
sections, or an instruction. -/
inductive Reads (s : State) (source : List Char) (n : ℕ) : State → Prop
  | labels (hstatement : statementOf source = []) : Reads s source n (s.withLabels source n)
  | directive {name args : String} {s₁ : State} (hdirective : directive? source = some (name, args))
      (hswitch : (s.withLabels source n).switch
        { name := name, args := args, line := some n, sect := some (s.withLabels source n).sect }
        (String.ofList (Text.trim source)) = .ok s₁)
      (hknown : (Section.isText s₁.sect && !isKnown name) = false) :
      Reads s source n
        { s₁ with
          records := .directive { name := name, args := args, line := some n, sect := some s₁.sect }
            :: s₁.records }
  | instruction {i : Instruction} (hstatement : statementOf source ≠ [])
      (hdirective : (statementOf source).head? ≠ some '.')
      (hread : readInstruction (some n) (statementOf source) = .ok i) :
      Reads s source n
        { s.withLabels source n with
          records := .instruction
            { i with
              comment := (stripComment source).2
              after := (s.withLabels source n).after
              sect := some (s.withLabels source n).sect } :: (s.withLabels source n).records }

/-- The state behind the statement of a line. -/
def statement (s : State) (source : List Char) (n : ℕ) : Except Fault State :=
  match statementOf source with
  | [] => .ok s
  | '.' :: _ => s.directive n (String.ofList (Text.trim source)) (statementOf source)
  | _ => s.instruction n (stripComment source).2 (statementOf source)

lemma line_eq_ok : s.line (source, n) = .ok s' ↔ s.Reads source n s' := by
  have hline : s.line (source, n) = (s.withLabels source n).statement source n := rfl
  rw [hline, statement]
  constructor
  · intro h
    split at h
    · rename_i hnil
      rw [← Except.ok.inj h]
      exact .labels hnil
    · rename_i rest hrest
      unfold State.directive at h
      split at h
      · cases h
      · rename_i name args hsplit
        obtain ⟨s₁, hswitch, h⟩ := bind_eq_ok.mp h
        dsimp only at h
        split at h
        · cases h
        · rename_i hknown
          rw [← pure_eq_ok.mp h]
          refine .directive ?_ hswitch (by simpa using hknown)
          rw [directive?, hrest]
          rwa [hrest] at hsplit
    · rename_i hnil hdot
      obtain ⟨i, hi, h⟩ := bind_eq_ok.mp h
      rw [← pure_eq_ok.mp h]
      refine .instruction hnil (fun hhead => ?_) hi
      obtain ⟨rest, hrest⟩ := List.head?_eq_some_iff.mp hhead
      exact hdot rest hrest
  · rintro (hnil | ⟨hdirective, hswitch, hknown⟩ | ⟨hnil, hdot, hread⟩)
    · rw [hnil]
    · unfold directive? at hdirective
      split at hdirective
      · rename_i rest hrest
        rw [hrest]
        unfold State.directive
        rw [hdirective]
        refine bind_eq_ok.mpr ⟨_, hswitch, ?_⟩
        rw [if_neg (by rw [hknown]; exact Bool.false_ne_true)]
        rfl
      · cases hdirective
    · split
      · rename_i h
        exact absurd h hnil
      · rename_i rest h
        rw [h] at hdot
        exact absurd rfl hdot
      · exact bind_eq_ok.mpr ⟨_, hread, rfl⟩

/-- A line with a directive. -/
lemma exists_switch_of_line (h : s.line (source, n) = .ok s') {name args : String}
    (hdirective : directive? source = some (name, args)) :
    ∃ s₁, (s.withLabels source n).switch
        { name := name, args := args, line := some n, sect := some (s.withLabels source n).sect }
        (String.ofList (Text.trim source)) = .ok s₁ ∧
      (Section.isText s₁.sect && !isKnown name) = false ∧
      s' = { s₁ with
        records := .directive { name := name, args := args, line := some n, sect := some s₁.sect }
          :: s₁.records } := by
  cases line_eq_ok.mp h with
  | labels hnil =>
    rw [directive?_eq_none (by simp [hnil])] at hdirective
    cases hdirective
  | directive hdirective' hswitch hknown =>
    obtain ⟨rfl, rfl⟩ := Prod.mk.inj (Option.some.inj (hdirective'.symm.trans hdirective))
    exact ⟨_, hswitch, hknown, rfl⟩
  | instruction _ hdot _ =>
    rw [directive?_eq_none hdot] at hdirective
    cases hdirective

end State

/-- A unit is read line by line. -/
lemma readUnit_eq_ok {text : String} {records : List Record} :
    readUnit text = .ok records ↔
      ∃ s, ((text.toList.splitOn '\n').zipIdx 1).foldlM State.line {} = .ok s ∧
        s.records.reverse = records := by
  rw [readUnit, Text.chars_eq_toList]
  exact map_eq_ok

end AsmBridge.Source
