import AsmBridge.Proofs.Mirror
import AsmBridge.Proofs.Source.Sections
import AsmBridge.Proofs.Source.Stops

/-!
# Where records stand

A record knows its line, and an instruction also the label before it and the comment behind it. None
of this says what the record is: the functions `unplaced` leave it out. What a statement is read as
does not depend on its line otherwise (`mirrors_readInstruction`), nor does what a row of lines is
read as depend on what stands before it, but for the section, as long as it does not go back to
sections of before (`exists_follows`).
-/

namespace AsmBridge

/-! ## Records without their place -/

def Diagnostic.unplaced (d : Diagnostic) : Diagnostic := { d with line := none }

def Fault.unplaced : Fault → Fault
  | .defect d => .defect d.unplaced
  | e => e

def Label.unplaced (l : Label) : Label := { l with line := none }

def Directive.unplaced (d : Directive) : Directive := { d with line := none }

/-- The instruction without its line, the label before it and the comment behind it. -/
def Instruction.unplaced (i : Instruction) : Instruction :=
  { i with line := none, after := none, comment := none, problem := i.problem.map (·.unplaced) }

def Record.unplaced : Record → Record
  | .label l => .label l.unplaced
  | .directive d => .directive d.unplaced
  | .instruction i => .instruction i.unplaced

/-- The directive goes back to a section of before, or prepares to. -/
def Directive.looksBack (d : Directive) : Bool :=
  [".previous", ".pushsection", ".popsection"].contains d.name

def Record.looksBack : Record → Bool
  | .directive d => d.looksBack
  | _ => false

/-- The fault is the other one without its place. -/
def IsUnplaced (e e' : Fault) : Prop := e' = e.unplaced

namespace Source

/-! ## Statements -/

section Statement

variable (line : Option ℕ)

lemma isUnplaced_defectAt (construct : String) (d : Defect) :
    IsUnplaced (defectAt line construct d) (defectAt none construct d) := rfl

lemma mirrors_number (s : List Char) : Mirrors IsUnplaced id (number s) (number s) := by
  refine .refl fun e he => ?_
  unfold number at he
  split at he
  · cases he
  · obtain rfl := Except.error.inj he
    rfl

lemma mirrors_product (op : String) (s a b : List Char) :
    Mirrors IsUnplaced id (product (defectAt line op) s a b)
      (product (defectAt none op) s a b) := by
  unfold product
  split
  · exact (mirrors_number b).map fun _ => rfl
  · exact (mirrors_number a).map fun _ => rfl
  · exact .error (isUnplaced_defectAt line _ _)

lemma mirrors_add (op : String) (sum : Sum) (t : Term) :
    Mirrors IsUnplaced id (sum.add line op t) (sum.add none op t) := by
  unfold Sum.add
  dsimp only
  split
  · refine (mirrors_product line op _ _ _).bind fun p _ => ?_
    dsimp only [id]
    split
    · exact .error (isUnplaced_defectAt line _ _)
    · exact .ok _
  · split
    · split_ifs
      · exact .error (isUnplaced_defectAt line _ _)
      · exact .ok _
      · exact .ok _
      · exact .error (isUnplaced_defectAt line _ _)
    · split
      · exact (mirrors_number _).bind fun v _ => .ok _
      · split_ifs
        · exact .error (isUnplaced_defectAt line _ _)
        · exact .ok _
        · exact .error (isUnplaced_defectAt line _ _)

lemma mirrors_address (op : String) (bits : Option ℕ) (sum : Sum) :
    Mirrors IsUnplaced id (sum.address line op bits) (sum.address none op bits) := by
  unfold Sum.address
  dsimp only
  split <;> split_ifs
  all_goals try exact .error (isUnplaced_defectAt line _ _)
  all_goals
    cases sum.wrongRegister? with
    | some r => exact .error (isUnplaced_defectAt line _ _)
    | none =>
      cases sum.scale with
      | none => exact .ok _
      | some n =>
        cases hscale : Scale.ofFactor? n with
        | none => simpa only [hscale] using .error (isUnplaced_defectAt line _ _)
        | some scale => simpa only [hscale] using .ok _

lemma mirrors_readAddress (bits : Option ℕ) (op : List Char) :
    Mirrors IsUnplaced id (readAddress line bits op) (readAddress none bits op) := by
  unfold readAddress
  dsimp only
  split
  · exact .error (isUnplaced_defectAt line _ _)
  · rename_i sum _
    exact (Mirrors.foldlM_same (fun s t _ => mirrors_add line (String.ofList op) s t) {}).bind
      fun s _ => mirrors_address line _ _ s

lemma mirrors_readOperand (source : List Char) :
    Mirrors IsUnplaced id (readOperand line source) (readOperand none source) := by
  have hmem : ∀ bits op, Mirrors IsUnplaced id ((readAddress line bits op).map Operand.mem)
      ((readAddress none bits op).map Operand.mem) :=
    fun bits op => (mirrors_readAddress line bits op).map fun _ => rfl
  unfold readOperand
  cases width? source with
  | some p =>
    simp only [Option.isSome_some, if_true]
    split_ifs
    · exact .error (isUnplaced_defectAt line _ _)
    · exact .error (isUnplaced_defectAt line _ _)
    · exact hmem _ _
    · exact .error (isUnplaced_defectAt line _ _)
  | none =>
    simp only [Option.isSome_none, Bool.false_eq_true, if_false]
    split_ifs
    · exact .error (isUnplaced_defectAt line _ _)
    · exact .error (isUnplaced_defectAt line _ _)
    · exact hmem _ _
    all_goals
      split
      · exact .error (isUnplaced_defectAt line _ _)
      · exact .ok _
    · exact (mirrors_number _).map fun _ => rfl
    · exact .ok _
    · exact .error (isUnplaced_defectAt line _ _)

/-- The operands with their problem without its place. -/
def Operands.unplaced (s : Operands) : Operands :=
  { s with problem := s.problem.map (·.unplaced) }

lemma mirrors_operands_add (s : Operands) (op : List Char) :
    Mirrors IsUnplaced Operands.unplaced (s.add line op) (s.unplaced.add none op) := by
  unfold Operands.add
  have h := mirrors_readOperand line op
  cases hx : readOperand line op with
  | ok o =>
    rw [h.eq_ok hx]
    exact .ok _
  | error e =>
    rw [hx] at h
    generalize readOperand none op = y at h
    cases h with
    | error he =>
      obtain rfl : _ = e.unplaced := he
      cases e with
      | defect d =>
        change Mirrors _ _ _ (if d.defect.kind = .instruction then _ else _)
        dsimp only
        split_ifs
        · exact .ok { s with problem := some d }
        · exact .error rfl
      | _ => exact .error rfl

lemma mirrors_readOperands (ops : Option (List Char)) :
    Mirrors IsUnplaced Operands.unplaced (readOperands line ops) (readOperands none ops) := by
  unfold readOperands
  split
  · exact .ok ({} : Operands)
  · split_ifs
    · exact .ok ({} : Operands)
    · rename_i ops _
      have hsplit : Mirrors IsUnplaced id (splitOperands line ops) (splitOperands none ops) := by
        unfold splitOperands
        dsimp only
        split_ifs
        · exact .error (isUnplaced_defectAt line _ _)
        · exact .ok _
      refine hsplit.bind fun texts _ => ?_
      exact Mirrors.foldlM_same (fun s op _ => mirrors_operands_add line s op) {}

/-- What a statement is read as does not depend on its line, but for the line. -/
lemma mirrors_readInstruction (s : List Char) :
    Mirrors IsUnplaced Instruction.unplaced (readInstruction line s) (readInstruction none s) := by
  have hsplit : Mirrors IsUnplaced id (splitStatement line s) (splitStatement none s) := by
    unfold splitStatement
    dsimp only
    split
    · exact .error (isUnplaced_defectAt line _ _)
    · split
      · split
        · exact .error (isUnplaced_defectAt line _ _)
        · exact .ok _
      · exact .ok _
  unfold readInstruction
  refine hsplit.bind fun p _ => ?_
  exact (mirrors_readOperands line _).bind fun read _ => .ok _

end Statement

/-! ## Lines -/

namespace State

/-- The second state is the first one with records before it: it is in the same section, and its own
records are those of the first one, elsewhere. The records are kept last first. -/
structure Follows (before : List Record) (s t : State) : Prop where
  records : ∃ rs, t.records = rs ++ before ∧ rs.map (·.unplaced) = s.records.map (·.unplaced)
  sect : t.sect = s.sect

variable {before : List Record} {s s' t : State}

/-- One record more, alike but for its place. -/
lemma Follows.push (h : ∃ rs, t.records = rs ++ before ∧
      rs.map (·.unplaced) = s.records.map (·.unplaced))
    {r r' : Record} (hr : r'.unplaced = r.unplaced) {s' t' : State}
    (hs : s'.records = r :: s.records) (ht : t'.records = r' :: t.records)
    (hsect : t'.sect = s'.sect) : s'.Follows before t' := by
  obtain ⟨rs, hrs, hmap⟩ := h
  refine ⟨⟨r' :: rs, by rw [ht, hrs]; rfl, ?_⟩, hsect⟩
  rw [hs, List.map_cons, List.map_cons, hr, hmap]

lemma Follows.withLabels (h : s.Follows before t) (source : List Char) (n m : ℕ) :
    (s.withLabels source n).Follows before (t.withLabels source m) := by
  unfold State.withLabels
  induction labelsOf source generalizing s t with
  | nil => exact h
  | cons name names ih =>
    have hlabel : ∀ k, (s.label k name).records = .label _ :: s.records := fun _ => rfl
    refine ih (Follows.push h.records ?_ (hlabel n) rfl h.sect)
    simp [Record.unplaced, Label.unplaced, h.sect]

/-- A switch that does not look back leads to one section wherever it stands. -/
lemma exists_switch {d d' : Directive} {source source' : String} (hname : d'.name = d.name)
    (hargs : d'.args = d.args) (hback : d.looksBack = false)
    (hsect : t.sect = s.sect ∨ d.name = ".text") (h : s.switch d source = .ok s') :
    ∃ t', t.switch d' source' = .ok t' ∧ t'.sect = s'.sect := by
  simp only [Directive.looksBack, List.contains_cons, List.contains_nil, Bool.or_false,
    Bool.or_eq_false_iff] at hback
  obtain ⟨hprevious, hpush, hpop⟩ := hback
  unfold switch at h ⊢
  rw [hname]
  simp only [hprevious, hpush, hpop, Bool.false_eq_true, if_false] at h ⊢
  split_ifs at h ⊢ with htext hsect'
  · rw [← Except.ok.inj h]
    exact ⟨_, rfl, rfl⟩
  · obtain ⟨sect, hd, rfl⟩ := map_eq_ok.mp h
    exact ⟨_, map_eq_ok.mpr ⟨sect, sectionName_congr hargs hd, rfl⟩, rfl⟩
  · obtain rfl := Except.ok.inj h
    refine ⟨t, rfl, hsect.resolve_right fun heq => htext ?_⟩
    rw [heq]
    rfl

/-- A line with a directive that does not look back is read alike in the same section, and one with
a switch to the section of instructions everywhere. -/
lemma exists_line_directive {source : List Char} {n : ℕ} {name args : String} {s₁ : State} {m : ℕ}
    (hrecords : ∃ rs, (t.withLabels source m).records = rs ++ before ∧
      rs.map (·.unplaced) = (s.withLabels source n).records.map (·.unplaced))
    (hdirective : directive? source = some (name, args))
    (hswitch : (s.withLabels source n).switch
      { name := name, args := args, line := some n, sect := some (s.withLabels source n).sect }
      (String.ofList (Text.trim source)) = .ok s₁)
    (hknown : (Section.isText s₁.sect && !isKnown name) = false)
    (hback : [".previous", ".pushsection", ".popsection"].contains name = false)
    (hsect : t.sect = s.sect ∨ name = ".text") :
    ∃ t', t.line (source, m) = .ok t' ∧ State.Follows before
      { s₁ with
        records := .directive { name := name, args := args, line := some n, sect := some s₁.sect }
          :: s₁.records } t' := by
  obtain ⟨t₁, hswitch', hsect₁⟩ : ∃ t₁, (t.withLabels source m).switch
      { name := name, args := args, line := some m, sect := some (t.withLabels source m).sect }
      (String.ofList (Text.trim source)) = .ok t₁ ∧ t₁.sect = s₁.sect :=
    exists_switch (by rfl) (by rfl) (by exact hback) (by simpa using hsect) hswitch
  have hreads : t.Reads source m _ := .directive hdirective hswitch' (by rwa [hsect₁])
  refine ⟨_, line_eq_ok.mpr hreads, Follows.push hrecords ?_
    (congrArg _ (switch_records hswitch)) (congrArg _ (switch_records hswitch')) hsect₁⟩
  simp [Record.unplaced, Directive.unplaced, hsect₁]

/-- A line more, in which no directive looks back. -/
lemma Follows.read_line (h : s.Follows before t) {source : List Char} {n : ℕ}
    (hs : s.line (source, n) = .ok s') (hback : ∀ r ∈ s'.records, r.looksBack = false) (m : ℕ) :
    ∃ t', t.line (source, m) = .ok t' ∧ s'.Follows before t' := by
  have hlabels := h.withLabels source n m
  cases line_eq_ok.mp hs with
  | labels hnil => exact ⟨_, line_eq_ok.mpr (.labels hnil), hlabels⟩
  | directive hdirective hswitch hknown =>
    exact exists_line_directive hlabels.records hdirective hswitch hknown
      (hback _ List.mem_cons_self) (.inl h.sect)
  | @instruction i hnil hdot hread =>
    obtain ⟨j, hj, hij⟩ := (mirrors_readInstruction (some n) _).exists_ok_of_ok
      (mirrors_readInstruction (some m) _) hread
    refine ⟨_, line_eq_ok.mpr (.instruction hnil hdot hj),
      Follows.push hlabels.records ?_ rfl rfl hlabels.sect⟩
    change Record.instruction { j.unplaced with sect := some (t.withLabels source m).sect } =
      .instruction { i.unplaced with sect := some (s.withLabels source n).sect }
    rw [hij, hlabels.sect]

/-- What is read stays. -/
lemma suffix_of_foldlM {ps : List (List Char × ℕ)} (h : ps.foldlM line s = .ok s') :
    s.records <:+ s'.records := by
  refine foldlM_induction (fun s' : State => s.records <:+ s'.records) ?_ h (List.suffix_refl _)
  intro s₁ p s₂ hline hs₁
  obtain ⟨new, ls, heq, -⟩ := records_line hline
  rw [heq]
  exact hs₁.trans ((List.suffix_append _ _).trans (List.suffix_append _ _))

/-- Further lines, in which no directive looks back. -/
lemma Follows.read_lines (h : s.Follows before t) {sources : List (List Char)} {n : ℕ}
    (hs : (sources.zipIdx n).foldlM State.line s = .ok s')
    (hback : ∀ r ∈ s'.records, r.looksBack = false) (m : ℕ) :
    ∃ t', (sources.zipIdx m).foldlM State.line t = .ok t' ∧ s'.Follows before t' := by
  induction sources generalizing s t n m with
  | nil =>
    obtain rfl := pure_eq_ok.mp hs
    exact ⟨t, rfl, h⟩
  | cons source sources ih =>
    rw [List.zipIdx_cons] at hs ⊢
    obtain ⟨s₁, hs₁, hs⟩ := foldlM_cons_eq_ok.mp hs
    have hsuffix := suffix_of_foldlM hs
    obtain ⟨t₁, ht₁, h₁⟩ := h.read_line hs₁ (fun r hr => hback r (hsuffix.subset hr)) m
    obtain ⟨t', ht', h'⟩ := ih h₁ hs (m + 1)
    exact ⟨t', foldlM_cons_eq_ok.mpr ⟨t₁, ht₁, ht'⟩, h'⟩

/-- What a line records behind its labels. -/
lemma suffix_of_line {source : List Char} {n : ℕ} (hs : s.line (source, n) = .ok s') :
    (s.withLabels source n).records <:+ s'.records := by
  cases line_eq_ok.mp hs with
  | labels _ => exact List.suffix_refl _
  | directive _ hswitch _ =>
    rw [← switch_records hswitch]
    exact List.suffix_cons _ _
  | instruction _ _ _ => exact List.suffix_cons _ _

/-- A line before which nothing is recorded, if the first record then is a directive: it has no
labels. -/
lemma labelsOf_of_first {source : List Char} {n : ℕ} (hempty : s.records = [])
    (hs : s.line (source, n) = .ok s') (hfirst : ∀ r ∈ s'.records.getLast?, ∃ d, r = .directive d) :
    labelsOf source = [] := by
  cases hlabels : labelsOf source with
  | nil => rfl
  | cons name names =>
    obtain ⟨new, hnew⟩ := suffix_of_line hs
    rw [withLabels_eq, hempty, hlabels] at hnew
    obtain ⟨d, hd⟩ := hfirst (.label { name := name, line := some n, sect := some s.sect })
      (by simp [← hnew])
    cases hd

/-- The first line with a record, which is a switch to the section of instructions, is read alike
everywhere, and the lines before it record nothing. -/
lemma exists_first_line {source : List Char} {n : ℕ} (hempty : s.records = [])
    (hs : s.line (source, n) = .ok s')
    (hfirst : ∀ r ∈ s'.records.getLast?, ∃ d, r = .directive d ∧ d.name = ".text") (t : State)
    (m : ℕ) : s'.records = [] ∧ t.line (source, m) = .ok t ∨
      s'.records ≠ [] ∧ ∃ t', t.line (source, m) = .ok t' ∧ s'.Follows t.records t' := by
  have hlabels := labelsOf_of_first hempty hs fun r hr => (hfirst r hr).imp fun d hd => hd.1
  have hnone : ∀ (u : State) (k : ℕ), u.withLabels source k = u := by
    intro u k
    rw [withLabels, hlabels, List.foldl_nil]
  cases line_eq_ok.mp hs with
  | labels hnil =>
    refine .inl ⟨by rw [hnone, hempty], ?_⟩
    have hreads : t.Reads source m _ := .labels hnil
    rw [hnone] at hreads
    exact line_eq_ok.mpr hreads
  | @directive name args s₁ hdirective hswitch hknown =>
    have hrecords : s₁.records = [] := by rw [switch_records hswitch, hnone, hempty]
    obtain ⟨d, hd, hname⟩ := hfirst (.directive _) (by rw [hrecords]; rfl)
    obtain rfl := Record.directive.inj hd
    dsimp only at hname
    refine .inr ⟨List.cons_ne_nil _ _, exists_line_directive ?_ hdirective hswitch hknown
      (by rw [hname]; rfl) (.inr hname)⟩
    exact ⟨[], by rw [hnone]; rfl, by rw [hnone, hempty]⟩
  | instruction _ _ _ =>
    rw [hnone, hempty] at hfirst
    obtain ⟨d, hd, -⟩ := hfirst _ rfl
    cases hd

/-- Lines that begin with a switch to the section of instructions and do not look back are read
alike behind others. -/
lemma exists_follows {sources : List (List Char)} {n : ℕ} (hempty : s.records = [])
    (hs : (sources.zipIdx n).foldlM State.line s = .ok s') {d : Directive}
    (hfirst : s'.records.getLast? = some (.directive d)) (hd : d.name = ".text")
    (hback : ∀ r ∈ s'.records, r.looksBack = false) (t : State) (m : ℕ) :
    ∃ t', (sources.zipIdx m).foldlM State.line t = .ok t' ∧ s'.Follows t.records t' := by
  induction sources generalizing s n m with
  | nil =>
    obtain rfl := pure_eq_ok.mp hs
    rw [hempty] at hfirst
    cases hfirst
  | cons source sources ih =>
    rw [List.zipIdx_cons] at hs ⊢
    obtain ⟨s₁, hs₁, hs⟩ := foldlM_cons_eq_ok.mp hs
    have hlast : ∀ r ∈ s₁.records.getLast?, r = .directive d := by
      intro r hr
      obtain ⟨new, hnew⟩ := suffix_of_foldlM hs
      rw [← hnew, List.getLast?_append, hr] at hfirst
      exact Option.some.inj hfirst
    rcases exists_first_line hempty hs₁ (fun r hr => ⟨d, hlast r hr, hd⟩) t m with
      ⟨hnone, ht₁⟩ | ⟨-, t₁, ht₁, h₁⟩
    · obtain ⟨t', ht', h'⟩ := ih hnone hs (m + 1)
      exact ⟨t', foldlM_cons_eq_ok.mpr ⟨t, ht₁, ht'⟩, h'⟩
    · obtain ⟨t', ht', h'⟩ := h₁.read_lines hs hback (m + 1)
      exact ⟨t', foldlM_cons_eq_ok.mpr ⟨t₁, ht₁, ht'⟩, h'⟩

end State

end Source

/-- A unit that begins with a switch to the section of instructions and does not look back is read
alike behind another one. -/
lemma exists_readUnit_append {a b : String} {recordsA rest : List Record} {d : Directive}
    (ha : Source.readUnit a = .ok recordsA)
    (hb : Source.readUnit b = .ok (.directive d :: rest)) (hd : d.name = ".text")
    (hback : ∀ r ∈ rest, r.looksBack = false) :
    ∃ recordsB, Source.readUnit (a ++ "\n" ++ b) = .ok (recordsA ++ recordsB) ∧
      recordsB.map (·.unplaced) = (Record.directive d :: rest).map (·.unplaced) := by
  obtain ⟨s, hs, hrecordsA⟩ := Source.readUnit_eq_ok.mp ha
  obtain ⟨s', hs', hrecordsB⟩ := Source.readUnit_eq_ok.mp hb
  have hreverse : s'.records = (Record.directive d :: rest).reverse := by
    rw [← hrecordsB, List.reverse_reverse]
  have hlast : s'.records.getLast? = some (.directive d) := by
    rw [hreverse, List.getLast?_reverse]
    rfl
  have hback' : ∀ r ∈ s'.records, r.looksBack = false := by
    rw [hreverse]
    intro r hr
    rcases List.mem_cons.mp (List.mem_reverse.mp hr) with rfl | hr
    · rw [Record.looksBack, Directive.looksBack, hd]
      rfl
    · exact hback r hr
  have hlines : (a ++ "\n" ++ b).toList.splitOn '\n' =
      a.toList.splitOn '\n' ++ b.toList.splitOn '\n' := by
    have hchars : (a ++ "\n" ++ b).toList = a.toList ++ '\n' :: b.toList := by
      simp
    rw [hchars, List.splitOn_append_cons_self]
  obtain ⟨t, ht, ⟨rs, hrs, hmap⟩, -⟩ := Source.State.exists_follows rfl hs' hlast hd hback' s
    (1 + (a.toList.splitOn '\n').length)
  refine ⟨rs.reverse, Source.readUnit_eq_ok.mpr ⟨t, ?_, ?_⟩, ?_⟩
  · rw [hlines, List.zipIdx_append]
    exact foldlM_append_eq_ok.mpr ⟨s, hs, ht⟩
  · rw [hrs, List.reverse_append, hrecordsA]
  · rw [List.map_reverse, hmap, hreverse, List.map_reverse, List.reverse_reverse]

end AsmBridge
