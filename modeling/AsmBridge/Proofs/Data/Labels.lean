import AsmBridge.Proofs.Data.Index
import Mathlib.Data.List.Nodup
import Mathlib.Data.List.Pairwise
import Mathlib.Tactic.Common

/-!
# What a label of constant data names

A label of read-only data opens a blob or becomes another name of one that is still empty
(`State.Open`); behind a switch or a label that follows data the blob stays as it is
(`State.Closed`). So the data that a label names at last are those of the directives in its extent,
which runs to the next switch or to the next label behind data (`find?_of_label`), and labels
without data between them name one blob (`find?_of_gap`).
-/

namespace AsmBridge

namespace Directive

/-- The bytes of a data directive, as far as they can be read; those of other directives are
none. -/
def decoded (d : Directive) : List UInt8 := d.bytes.toOption.getD []

/-- The directive has bytes. -/
def fills (d : Directive) : Bool := !d.decoded.isEmpty

/-- The directive is no data directive or its bytes can be read. -/
def IsReadable (d : Directive) : Prop := isDataName d.name = true → ∃ bytes, d.bytes = .ok bytes

/-- The problem that a directive leaves in its blob: why its bytes cannot be had, and its line. -/
def problem? (d : Directive) : Option String :=
  if isDataName d.name then
    match d.bytes with
    | .ok _ => none
    | .error e => some (e.reason ++ " (line " ++ toString (d.line.getD 0) ++ ")")
  else none

/-- The problem that remains behind a row of directives: that of the last one that has any, or else
the one that was there before. -/
def lastProblem (before : Option String) (ds : List Directive) : Option String :=
  ds.foldl (fun p d => d.problem?.or p) before

lemma problem?_eq_none {d : Directive} : d.problem? = none ↔ d.IsReadable := by
  rw [problem?, IsReadable]
  split_ifs with hname
  · cases hbytes : d.bytes with
    | ok bytes => exact ⟨fun _ _ => ⟨bytes, rfl⟩, fun _ => rfl⟩
    | error e => exact ⟨fun h => (nomatch h), fun h => nomatch (h hname).choose_spec⟩
  · exact ⟨fun _ h => absurd h hname, fun _ => rfl⟩

/-- Only data directives leave problems. -/
lemma problem?_of_isDataName {d : Directive} (h : isDataName d.name = false) :
    d.problem? = none := by
  rw [problem?, h]
  rfl

lemma lastProblem_eq_none {before : Option String} {ds : List Directive} :
    lastProblem before ds = none ↔ before = none ∧ ∀ d ∈ ds, d.IsReadable := by
  induction ds generalizing before with
  | nil => simp [lastProblem]
  | cons d ds ih =>
    rw [lastProblem, List.foldl_cons, ← lastProblem, ih, Option.or_eq_none_iff, problem?_eq_none,
      List.forall_mem_cons]
    tauto

/-- A problem that remains was there before or is one of the directives. -/
lemma exists_of_lastProblem {before : Option String} {ds : List Directive} {reason : String}
    (h : lastProblem before ds = some reason) :
    before = some reason ∨ ∃ d ∈ ds, d.problem? = some reason := by
  induction ds generalizing before with
  | nil => exact .inl h
  | cons d ds ih =>
    rw [lastProblem, List.foldl_cons] at h
    rcases ih h with h | ⟨e, he, h⟩
    · rcases Option.or_eq_some_iff.mp h with h | ⟨-, h⟩
      · exact .inr ⟨d, List.mem_cons_self, h⟩
      · exact .inl h
    · exact .inr ⟨e, List.mem_cons_of_mem _ he, h⟩

/-- Only data directives have bytes. -/
lemma decoded_of_isDataName {d : Directive} (h : isDataName d.name = false) : d.decoded = [] := by
  simp only [isDataName, Bool.or_eq_false_iff, Option.isSome_eq_false_iff,
    Option.isNone_iff_eq_none] at h
  obtain ⟨⟨⟨hinteger, hfloat⟩, hstring⟩, hfill⟩ := h
  rw [decoded, bytes, hinteger, hfloat, hstring, hfill]
  rfl

end Directive

/-- More data come behind those that a blob has, and a problem of the directive takes the place of
one that the blob has. -/
lemma Blob.extend_data {b c : Blob} {d : Directive} (hname : Directive.isDataName d.name = true)
    (h : b.extend d = .ok c) :
    c.data = b.data ++ d.decoded ∧ c.problem = d.problem?.or b.problem := by
  rw [Directive.decoded, Directive.problem?, if_pos hname]
  rcases Blob.extend_eq_ok h with ⟨bytes, hbytes, rfl⟩ | ⟨e, hbytes, rfl⟩
  · rw [hbytes]
    exact ⟨rfl, rfl⟩
  · rw [hbytes]
    exact ⟨(List.append_nil _).symm, rfl⟩

namespace DataIndex

/-! ## Records -/

/-- The name that a record gives to read-only data. -/
def name? (r : Record) : Option String :=
  match role r with
  | .label l => some l.name
  | _ => none

/-- The record neither switches sections nor is a data directive of a read-only section. -/
def isGap (r : Record) : Bool :=
  match role r with
  | .switch => false
  | .directive d => !Directive.isDataName d.name
  | _ => true

/-- The record neither switches sections nor gives data. -/
def isQuiet (r : Record) : Bool :=
  match role r with
  | .switch => false
  | .directive d => !d.fills
  | _ => true

lemma isQuiet_of_isGap {r : Record} (h : isGap r = true) : isQuiet r = true := by
  unfold isGap at h
  unfold isQuiet
  cases hcase : role r with
  | directive d =>
    rw [hcase] at h
    have hname : Directive.isDataName d.name = false := by simpa using h
    simp [Directive.fills, Directive.decoded_of_isDataName hname]
  | switch =>
    rw [hcase] at h
    cases h
  | _ => rfl

/-- The directive of read-only data that a record is. -/
def directive? (r : Record) : Option Directive :=
  match role r with
  | .directive d => some d
  | _ => none

/-- The directives of read-only data up to the next switch or the next label behind data; `fills`
tells which directives give data and `filled` if there are data already. -/
def extent (fills : Directive → Bool) (filled : Bool) : List Record → List Directive
  | [] => []
  | r :: rest =>
    match role r with
    | .switch => []
    | .label _ => if filled then [] else extent fills filled rest
    | .directive d => d :: extent fills (filled || fills d) rest
    | .ignored => extent fills filled rest

namespace State

/-! ## Open and closed blobs -/

/-- The last blob goes by the names, and data belong to it. -/
structure Open (s : State) (names : List String) (b : Blob) : Prop where
  inBlob : s.inBlob = true
  last : ∃ all rest, s.index.blobs = ⟨all, b⟩ :: rest ∧ ∀ n ∈ names, n ∈ all

/-- The names find a blob to which no more data belong, or nothing. -/
structure Closed (s : State) (names : List String) (found : Option Blob) : Prop where
  find? : ∀ n ∈ names, s.index.find? n = found
  other : s.inBlob = true → ∀ c ∈ s.index.blobs.head?, ∀ n ∈ names, n ∉ c.labels

/-- The names find a blob `c` with the data of directives behind those of `b`, and with the problem
that they leave behind the one of `b`. -/
structure Extended (x : DataIndex) (names : List String) (b : Blob) (ds : List Directive)
    (c : Blob) : Prop where
  find? : ∀ n ∈ names, x.find? n = some c
  symbol : c.symbol = b.symbol
  data : c.data = b.data ++ ds.flatMap (·.decoded)
  problem : c.problem = Directive.lastProblem b.problem ds

variable {s t : State} {names : List String} {b : Blob} {found : Option Blob}

/-- What is found among blobs if the last one has the name. -/
lemma find?_of_mem {x : DataIndex} {c : LabelledBlob} {rest : List LabelledBlob} {n : String}
    (hx : x.blobs = c :: rest) (hn : n ∈ c.labels) : x.find? n = some c.blob := by
  rw [DataIndex.find?, hx, List.find?_cons_of_pos (by simpa using hn), Option.map_some]

/-- What is found among blobs if the last one lacks the name. -/
lemma find?_of_notMem {x : DataIndex} {c : LabelledBlob} {rest : List LabelledBlob} {n : String}
    (hx : x.blobs = c :: rest) (hn : n ∉ c.labels) :
    x.find? n = (rest.find? (·.labels.contains n)).map (·.blob) := by
  rw [DataIndex.find?, hx, List.find?_cons_of_neg (by simpa using hn)]

/-- The names of an open blob find it. -/
lemma Open.find? (h : s.Open names b) {n : String} (hn : n ∈ names) :
    s.index.find? n = some b := by
  obtain ⟨all, rest, hblobs, hall⟩ := h.last
  exact find?_of_mem hblobs (hall n hn)

/-- An open blob goes by some of its names. -/
lemma Open.weaken {n : String} (h : s.Open (n :: names) b) : s.Open names b := by
  obtain ⟨all, rest, hblobs, hall⟩ := h.last
  exact ⟨h.inBlob, all, rest, hblobs, fun m hm => hall m (List.mem_cons_of_mem n hm)⟩

/-- What leaves the blobs as they are leaves an open one open. -/
lemma Open.of_blobs_eq (h : s.Open names b) (hblobs : t.index.blobs = s.index.blobs)
    (hin : t.inBlob = s.inBlob) : t.Open names b := by
  obtain ⟨all, rest, heq, hall⟩ := h.last
  exact ⟨hin.trans h.inBlob, all, rest, hblobs.trans heq, hall⟩

/-- What leaves the blobs as they are leaves closed ones closed. -/
lemma Closed.of_blobs_eq (h : s.Closed names found) (hblobs : t.index.blobs = s.index.blobs)
    (hin : t.inBlob = true → s.inBlob = true) : t.Closed names found := by
  refine ⟨fun n hn => ?_, fun hopen => ?_⟩
  · rw [DataIndex.find?, hblobs]
    exact h.find? n hn
  · rw [hblobs]
    exact h.other (hin hopen)

/-- A last blob with other names leaves those before it closed. -/
lemma closed_of_cons {c : LabelledBlob} {rest : List LabelledBlob}
    (hnew : t.index.blobs = c :: rest) (hother : ∀ n ∈ names, n ∉ c.labels)
    (hfound : ∀ n ∈ names, (rest.find? (·.labels.contains n)).map (·.blob) = found) :
    t.Closed names found := by
  refine ⟨fun n hn => (find?_of_notMem hnew (hother n hn)).trans (hfound n hn), fun _ c' hc' => ?_⟩
  rw [hnew] at hc'
  obtain rfl := Option.some.inj hc'
  exact hother

/-! ## Labels -/

/-- A label of read-only data becomes another name of the last blob, if data belong to this one but
none have come yet, or else begins a blob. -/
lemma label_cases (s : State) (l : Label) :
    (s.label l).inBlob = true ∧
      ((∃ last rest, s.inBlob = true ∧ s.index.blobs = last :: rest ∧ last.blob.data = [] ∧
        (s.label l).index.blobs = { last with labels := l.name :: last.labels } :: rest) ∨
      ((s.inBlob = true → ∀ c ∈ s.index.blobs.head?, c.blob.data ≠ []) ∧
        (s.label l).index.blobs = s.newBlob l :: s.index.blobs)) := by
  refine ⟨rfl, ?_⟩
  cases hblobs : s.index.blobs with
  | nil => exact .inr ⟨fun _ c hc => (nomatch hc), by simp only [label, hblobs]⟩
  | cons last rest =>
    by_cases hopen : (s.inBlob && last.blob.data.isEmpty) = true
    · obtain ⟨hin, hempty⟩ := Bool.and_eq_true_iff.mp hopen
      exact .inl ⟨last, rest, hin, rfl, List.isEmpty_iff.mp hempty,
        by simp only [label, hblobs, if_pos hopen]⟩
    · refine .inr ⟨fun hin c hc hempty => hopen ?_, by simp only [label, hblobs, if_neg hopen]⟩
      obtain rfl := Option.some.inj hc
      rw [hin, hempty]
      rfl

/-- A label of read-only data names an open blob without data. -/
lemma exists_open_label (s : State) (l : Label) :
    ∃ b, (s.label l).Open [l.name] b ∧ b.data = [] := by
  obtain ⟨hin, ⟨last, rest, -, -, hdata, hblobs⟩ | ⟨-, hblobs⟩⟩ := s.label_cases l
  · exact ⟨last.blob, ⟨hin, _, rest, hblobs, by simp⟩, hdata⟩
  · exact ⟨_, ⟨hin, _, _, hblobs, by simp⟩, rfl⟩

/-- A label becomes another name of an open blob without data. -/
lemma Open.label (h : s.Open names b) (hdata : b.data = []) (l : Label) :
    (s.label l).Open (l.name :: names) b := by
  obtain ⟨all, rest, hblobs, hall⟩ := h.last
  obtain ⟨hin, ⟨last, rest', -, hlast, -, hnew⟩ | ⟨hfull, -⟩⟩ := s.label_cases l
  · obtain ⟨rfl, rfl⟩ := List.cons_eq_cons.mp (hblobs.symm.trans hlast)
    refine ⟨hin, _, _, hnew, ?_⟩
    rintro n (_ | ⟨_, hn⟩)
    · exact List.mem_cons_self
    · exact List.mem_cons_of_mem _ (hall n hn)
  · exact absurd hdata (hfull h.inBlob _ (by rw [hblobs]; rfl))

/-- The blob that a label begins has no other name. -/
lemma notMem_newBlob {l : Label} (hl : l.name ∉ names) : ∀ n ∈ names, n ∉ (s.newBlob l).labels := by
  intro n hn hmem
  exact hl (List.mem_singleton.mp hmem ▸ hn)

/-- A label with another name closes an open blob that has data. -/
lemma Open.close_label (h : s.Open names b) (hdata : b.data ≠ []) {l : Label}
    (hl : l.name ∉ names) : (s.label l).Closed names (some b) := by
  obtain ⟨all, rest, hblobs, hall⟩ := h.last
  obtain ⟨-, ⟨last, rest', -, hlast, hempty, -⟩ | ⟨-, hnew⟩⟩ := s.label_cases l
  · obtain ⟨rfl, rfl⟩ := List.cons_eq_cons.mp (hblobs.symm.trans hlast)
    exact absurd hempty hdata
  · exact closed_of_cons hnew (notMem_newBlob hl) fun n hn => h.find? hn

/-- A label with another name leaves a closed blob closed. -/
lemma Closed.label (h : s.Closed names found) {l : Label} (hl : l.name ∉ names) :
    (s.label l).Closed names found := by
  obtain ⟨-, ⟨last, rest, hin, hlast, -, hnew⟩ | ⟨-, hnew⟩⟩ := s.label_cases l
  · have hold : ∀ n ∈ names, n ∉ last.labels := h.other hin last (by rw [hlast]; rfl)
    refine closed_of_cons hnew (fun n hn hmem => ?_) fun n hn => ?_
    · rcases List.mem_cons.mp hmem with rfl | hmem
      · exact hl hn
      · exact hold n hn hmem
    · rw [← find?_of_notMem hlast (hold n hn)]
      exact h.find? n hn
  · exact closed_of_cons hnew (notMem_newBlob hl) h.find?

/-! ## Directives -/

/-- Where there is a blob for data, a directive of no effect on it is no data directive. -/
lemma isDataName_of_nothing {d : Directive} {last : LabelledBlob} {rest : List LabelledBlob}
    (hin : s.inBlob = true) (hblobs : s.index.blobs = last :: rest)
    (hnone : Directive.isDataName d.name = true → s.inBlob = true → s.index.blobs = []) :
    Directive.isDataName d.name = false := by
  rw [Bool.eq_false_iff]
  intro hname
  cases hblobs.symm.trans (hnone hname hin)

/-- A directive extends an open blob by its data. -/
lemma Open.directive (h : s.Open names b) {d : Directive} (hd : s.directive d = .ok t) :
    ∃ c, t.Open names c ∧ c.symbol = b.symbol ∧ c.data = b.data ++ d.decoded ∧
      c.problem = d.problem?.or b.problem := by
  obtain ⟨all, rest, hblobs, hall⟩ := h.last
  have hsame : ∀ {t : State}, t.Open names b → Directive.isDataName d.name = false →
      ∃ c, t.Open names c ∧ c.symbol = b.symbol ∧ c.data = b.data ++ d.decoded ∧
        c.problem = d.problem?.or b.problem := by
    intro t ht hname
    refine ⟨b, ht, rfl, ?_, ?_⟩
    · rw [Directive.decoded_of_isDataName hname, List.append_nil]
    · rw [Directive.problem?_of_isDataName hname, Option.none_or]
  cases directive_eq_ok.mp hd with
  | align halign _ =>
    exact hsame (h.of_blobs_eq rfl rfl) (Directive.isDataName_of_isAlignmentName halign)
  | @data last rest' blob hname _ hlast hblob =>
    obtain ⟨rfl, rfl⟩ := List.cons_eq_cons.mp (hblobs.symm.trans hlast)
    obtain ⟨hdata, hproblem⟩ := Blob.extend_data hname hblob
    exact ⟨blob, ⟨h.inBlob, all, rest, rfl, hall⟩, Blob.extend_symbol hblob, hdata, hproblem⟩
  | nothing _ hnone => exact hsame h (isDataName_of_nothing h.inBlob hblobs hnone)

/-- A directive leaves a closed blob closed. -/
lemma Closed.directive (h : s.Closed names found) {d : Directive} (hd : s.directive d = .ok t) :
    t.Closed names found := by
  cases directive_eq_ok.mp hd with
  | align _ _ => exact h.of_blobs_eq rfl id
  | @data last rest blob _ hopen hlast _ =>
    have hold : ∀ n ∈ names, n ∉ last.labels := h.other hopen last (by rw [hlast]; rfl)
    refine closed_of_cons rfl hold fun n hn => ?_
    rw [← find?_of_notMem hlast (hold n hn)]
    exact h.find? n hn
  | nothing _ _ => exact h

/-! ## Rows of records -/

/-- A label that gives none of the names. -/
lemma notMem_of_name? {r : Record} (h : ∀ n ∈ names, name? r ≠ some n) {l : Label}
    (hl : role r = .label l) : l.name ∉ names :=
  fun hmem => h _ hmem (by rw [name?, hl])

/-- Records that give none of the names leave a closed blob closed. -/
lemma Closed.run {records : List Record} (h : s.Closed names found)
    (hrun : records.foldlM record s = .ok t)
    (hother : ∀ r ∈ records, ∀ n ∈ names, name? r ≠ some n) : t.Closed names found := by
  induction records generalizing s with
  | nil =>
    obtain rfl := pure_eq_ok.mp hrun
    exact h
  | cons r records ih =>
    obtain ⟨hr, hother⟩ := List.forall_mem_cons.mp hother
    rw [List.foldlM_cons] at hrun
    obtain ⟨u, hu, hrun⟩ := bind_eq_ok.mp hrun
    refine ih ?_ hrun hother
    cases record_eq_ok.mp hu with
    | switch _ _ => exact h.of_blobs_eq rfl fun hin => nomatch hin
    | label hrole => exact h.label (notMem_of_name? hr hrole)
    | directive _ hd => exact h.directive hd
    | ignored _ _ => exact h.of_blobs_eq rfl id

/-- The names of an open blob find at last a blob with the data of the extent behind those that were
there. -/
lemma Open.run {records : List Record} (h : s.Open names b)
    (hrun : records.foldlM record s = .ok t)
    (hother : ∀ r ∈ records, ∀ n ∈ names, name? r ≠ some n) :
    ∃ c, Extended t.index names b (extent Directive.fills (!b.data.isEmpty) records) c := by
  induction records generalizing s b with
  | nil =>
    obtain rfl := pure_eq_ok.mp hrun
    exact ⟨b, fun n hn => h.find? hn, rfl, (List.append_nil _).symm, rfl⟩
  | cons r records ih =>
    obtain ⟨hr, hother⟩ := List.forall_mem_cons.mp hother
    rw [List.foldlM_cons] at hrun
    obtain ⟨u, hu, hrun⟩ := bind_eq_ok.mp hrun
    -- Where the extent ends, the blob is closed.
    have hclosed : u.Closed names (some b) → ∃ c, Extended t.index names b [] c := fun hu =>
      ⟨b, (hu.run hrun hother).find?, rfl, (List.append_nil _).symm, rfl⟩
    cases record_eq_ok.mp hu with
    | switch hswitch _ =>
      rw [extent, role_of_switches hswitch]
      exact hclosed ⟨fun n hn => h.find? hn, fun hin => nomatch hin⟩
    | @label l hrole =>
      rw [extent, hrole]
      by_cases hdata : b.data = []
      · have hnext := ih (h.label hdata l).weaken hrun hother
        rw [hdata] at hnext ⊢
        exact hnext
      · have hfilled : (!b.data.isEmpty) = true := by simpa using hdata
        dsimp only
        rw [if_pos hfilled]
        exact hclosed (h.close_label hdata (notMem_of_name? hr hrole))
    | @directive d _ hrole hd =>
      obtain ⟨c, hc, hsymbol, hdata, hproblem⟩ := h.directive hd
      obtain ⟨c', hfind, hsymbol', hdata', hproblem'⟩ := ih hc hrun hother
      have hfilled : (!c.data.isEmpty) = (!b.data.isEmpty || d.fills) := by
        rw [hdata]
        cases b.data <;> rfl
      rw [hfilled] at hdata' hproblem'
      rw [extent, hrole]
      refine ⟨c', hfind, hsymbol'.trans hsymbol, ?_, ?_⟩
      · rw [hdata', hdata, List.flatMap_cons, List.append_assoc]
      · rw [hproblem', hproblem]
        rfl
    | ignored hrole _ =>
      rw [extent, hrole]
      exact ih (h.of_blobs_eq (by rfl) (by rfl)) hrun hother

/-- Quiet records leave an open blob without data open and without data; the problems of their
directives come behind its own. -/
lemma Open.quiet {records : List Record} (h : s.Open names b) (hdata : b.data = [])
    (hrun : records.foldlM record s = .ok t) (hquiet : ∀ r ∈ records, isQuiet r = true) :
    ∃ c, t.Open names c ∧ c.symbol = b.symbol ∧ c.data = [] ∧
      c.problem = Directive.lastProblem b.problem (records.filterMap directive?) := by
  induction records generalizing s b with
  | nil =>
    obtain rfl := pure_eq_ok.mp hrun
    exact ⟨b, h, rfl, hdata, rfl⟩
  | cons r records ih =>
    obtain ⟨hr, hquiet⟩ := List.forall_mem_cons.mp hquiet
    rw [List.foldlM_cons] at hrun
    obtain ⟨u, hu, hrun⟩ := bind_eq_ok.mp hrun
    rw [isQuiet] at hr
    cases record_eq_ok.mp hu with
    | switch hswitch _ =>
      rw [role_of_switches hswitch] at hr
      cases hr
    | @label l hrole =>
      rw [List.filterMap_cons_none (by rw [directive?, hrole])]
      exact ih (h.label hdata l).weaken hdata hrun hquiet
    | @directive d _ hrole hd =>
      rw [hrole] at hr
      obtain ⟨c, hc, hsymbol, hcdata, hproblem⟩ := h.directive hd
      have hdecoded : d.decoded = [] := by simpa [Directive.fills] using hr
      rw [hdata, hdecoded] at hcdata
      obtain ⟨e, he, hesymbol, hedata, heproblem⟩ := ih hc hcdata hrun hquiet
      rw [List.filterMap_cons_some (by rw [directive?, hrole])]
      exact ⟨e, he, hesymbol.trans hsymbol, hedata, by rw [heproblem, hproblem]; rfl⟩
    | ignored hrole _ =>
      rw [List.filterMap_cons_none (by rw [directive?, hrole])]
      exact ih (h.of_blobs_eq (by rfl) (by rfl)) hdata hrun hquiet

end State

/-! ## Labels of a unit -/

variable {records front mid back : List Record} {x : DataIndex} {l : Label}

/-- The role of a label of read-only data. -/
lemma role_label (hl : Section.isReadOnly (l.sect.getD "") = true) :
    role (.label l) = .label l := by
  rw [role, if_neg (by simp [switches]), sectionOf, if_pos hl]

/-- A record that gives a name to read-only data is a label there. -/
lemma exists_of_name? {name : String} {r : Record} (h : name? r = some name) :
    ∃ l, r = .label l ∧ Section.isReadOnly (l.sect.getD "") = true ∧ l.name = name := by
  unfold name? at h
  split at h
  · rename_i l hrole
    obtain ⟨rfl, hreadOnly⟩ := of_role_label hrole
    exact ⟨l, rfl, hreadOnly, Option.some.inj h⟩
  · cases h

/-- The state behind a label of read-only data. -/
lemma exists_states (h : ofRecords (front ++ .label l :: back) = .ok x)
    (hl : Section.isReadOnly (l.sect.getD "") = true) :
    ∃ s t, (front ++ [Record.label l]).foldlM State.record {} = .ok (State.label s l) ∧
      back.foldlM State.record (s.label l) = .ok t ∧ t.index = x := by
  obtain ⟨t, ht, rfl⟩ := map_eq_ok.mp h
  rw [List.foldlM_append] at ht
  obtain ⟨s, hs, ht⟩ := bind_eq_ok.mp ht
  rw [List.foldlM_cons] at ht
  obtain ⟨u, hu, ht⟩ := bind_eq_ok.mp ht
  obtain rfl := Except.ok.inj ((State.record_of_label (role_label hl)).symm.trans hu)
  refine ⟨s, t, ?_, ht, rfl⟩
  rw [List.foldlM_append]
  exact bind_eq_ok.mpr ⟨s, hs, by rw [List.foldlM_cons]; exact bind_eq_ok.mpr ⟨_, hu, rfl⟩⟩

/-- What is found under a name was labelled with it in read-only data, at some place for the last
time. -/
lemma exists_label_of_find? {name : String} {b : Blob} (h : ofRecords records = .ok x)
    (hb : x.find? name = some b) :
    ∃ front l back, records = front ++ .label l :: back ∧
      Section.isReadOnly (l.sect.getD "") = true ∧ l.name = name ∧
      ∀ r ∈ back, name? r ≠ some name := by
  cases hlast : records.reverse.find? (name? · == some name) with
  | none =>
    have hother : ∀ r ∈ records, name? r ≠ some name := fun r hr => by
      simpa using List.find?_eq_none.mp hlast r (List.mem_reverse.mpr hr)
    obtain ⟨s, hs, rfl⟩ := map_eq_ok.mp h
    have hstart : State.Closed {} [name] none :=
      ⟨fun _ _ => rfl, fun _ c hc => nomatch hc⟩
    have hclosed := hstart.run hs fun r hr n hn => by
      rw [List.mem_singleton.mp hn]
      exact hother r hr
    exact nomatch hb.symm.trans (hclosed.find? name List.mem_cons_self)
  | some r =>
    obtain ⟨hr, back, front, heq, hback⟩ := List.find?_eq_some_iff_append.mp hlast
    obtain ⟨l, rfl, hl, hname⟩ := exists_of_name? (beq_iff_eq.mp hr)
    refine ⟨front.reverse, l, back.reverse, ?_, hl, hname, fun r hr => ?_⟩
    · rw [← List.reverse_reverse records, heq]
      simp
    · simpa using hback r (List.mem_reverse.mp hr)

/-- What a label finds has the data of its extent, and if it has no problem, these are all
readable. -/
lemma find?_of_label (h : ofRecords (front ++ .label l :: back) = .ok x)
    (hl : Section.isReadOnly (l.sect.getD "") = true)
    (hother : ∀ r ∈ back, name? r ≠ some l.name) :
    ∃ b, x.find? l.name = some b ∧
      b.data = (extent Directive.fills false back).flatMap (·.decoded) ∧
      (b.problem = none → ∀ d ∈ extent Directive.fills false back, d.IsReadable) := by
  obtain ⟨s, t, -, hrun, rfl⟩ := exists_states h hl
  obtain ⟨b, hopen, hdata⟩ := s.exists_open_label l
  obtain ⟨c, hfind, -, hc, hproblem⟩ := hopen.run hrun fun r hr n hn => by
    rw [List.mem_singleton.mp hn]
    exact hother r hr
  rw [hdata] at hc hproblem
  refine ⟨c, hfind _ List.mem_cons_self, hc, fun hnone => ?_⟩
  exact (Directive.lastProblem_eq_none.mp (hproblem.symm.trans hnone)).2

/-! ## Names of a unit -/

/-- One record more gives the name that it has. -/
lemma State.labels_record {s t : State} {r : Record} (h : s.record r = .ok t) :
    t.index.blobs.flatMap (·.labels) =
      (name? r).toList ++ s.index.blobs.flatMap (·.labels) := by
  rw [name?]
  cases record_eq_ok.mp h with
  | switch hswitch _ =>
    rw [role_of_switches hswitch]
    rfl
  | @label l hrole =>
    rw [hrole]
    obtain ⟨-, ⟨last, rest, -, hblobs, -, hnew⟩ | ⟨-, hnew⟩⟩ := s.label_cases l
    · rw [hnew, hblobs]
      rfl
    · rw [hnew]
      rfl
  | directive hrole hd =>
    rw [hrole]
    cases directive_eq_ok.mp hd with
    | align _ _ => rfl
    | data _ _ hblobs _ =>
      rw [hblobs]
      rfl
    | nothing _ _ => rfl
  | ignored hrole _ =>
    rw [hrole]
    rfl

/-- The labels of all blobs are the names that the records give, last first. -/
lemma State.labels_run {s t : State} (h : records.foldlM State.record s = .ok t) :
    t.index.blobs.flatMap (·.labels) =
      (records.filterMap name?).reverse ++ s.index.blobs.flatMap (·.labels) := by
  induction records generalizing s with
  | nil =>
    obtain rfl := pure_eq_ok.mp h
    rfl
  | cons r records ih =>
    rw [List.foldlM_cons] at h
    obtain ⟨u, hu, h⟩ := bind_eq_ok.mp h
    rw [ih h, labels_record hu]
    cases hname : name? r <;> simp [hname]

/-- A name that is given once stands at one blob. -/
lemma labelsOnce_of_nodup (h : ofRecords records = .ok x)
    (hnodup : (records.filterMap name?).Nodup) (name : String) : x.LabelsOnce name := by
  obtain ⟨t, ht, rfl⟩ := map_eq_ok.mp h
  have hlabels : (t.index.blobs.flatMap (·.labels)).Nodup := by
    rw [State.labels_run ht]
    simpa using List.nodup_reverse.mpr hnodup
  intro b hb c hc hnameb hnamec
  by_contra hne
  have : Std.Symm (Function.onFun List.Disjoint LabelledBlob.labels) :=
    ⟨fun _ _ h _ hleft hright => h hright hleft⟩
  exact (List.nodup_flatMap.mp hlabels).2.forall hb hc hne hnameb hnamec

/-- An open blob goes by a name that the records up to there give. -/
lemma State.Open.symbol_mem {s : State} {names : List String} {b : Blob} (h : s.Open names b)
    (hrun : records.foldlM State.record {} = .ok s) : b.symbol ∈ records.filterMap name? := by
  obtain ⟨all, rest, hblobs, -⟩ := h.last
  have hnamed : b.symbol ∈ all :=
    ofRecords_isNamed (map_eq_ok.mpr ⟨s, hrun, rfl⟩) ⟨all, b⟩ (hblobs ▸ List.mem_cons_self)
  have hlabels := State.labels_run hrun
  rw [hblobs, List.flatMap_cons] at hlabels
  have hmem : b.symbol ∈ all ++ rest.flatMap (·.labels) := List.mem_append_left _ hnamed
  rw [hlabels, List.mem_append, List.mem_reverse] at hmem
  exact hmem.resolve_right fun hmem => nomatch hmem

/-- Labels without data between them find the same blob. It does not go by the later one if no other
record gives this name. -/
lemma find?_of_gap {l' : Label}
    (h : ofRecords (front ++ .label l :: (mid ++ .label l' :: back)) = .ok x)
    (hl : Section.isReadOnly (l.sect.getD "") = true)
    (hl' : Section.isReadOnly (l'.sect.getD "") = true) (hmid : ∀ r ∈ mid, isGap r = true)
    (hnodup :
      ((front ++ .label l :: (mid ++ .label l' :: back)).filterMap name?).Nodup) :
    ∃ b, x.find? l.name = some b ∧ x.find? l'.name = some b ∧ b.symbol ≠ l'.name := by
  have hname : name? (.label l) = some l.name := by rw [name?, role_label hl]
  have hname' : name? (.label l') = some l'.name := by rw [name?, role_label hl']
  obtain ⟨s, t, hs, hrun, rfl⟩ := exists_states h hl
  obtain ⟨b, hopen, hdata⟩ := s.exists_open_label l
  rw [List.foldlM_append] at hrun
  obtain ⟨u, hu, hrun⟩ := bind_eq_ok.mp hrun
  obtain ⟨c, hopen', -, hdata', -⟩ :=
    hopen.quiet hdata hu fun r hr => isQuiet_of_isGap (hmid r hr)
  rw [List.foldlM_cons] at hrun
  obtain ⟨v, hv, hrun⟩ := bind_eq_ok.mp hrun
  obtain rfl := Except.ok.inj ((State.record_of_label (role_label hl')).symm.trans hv)
  simp only [List.filterMap_append, List.filterMap_cons, hname, hname'] at hnodup
  have hlast := (List.nodup_middle.mp hnodup).notMem
  rw [← List.cons_append, ← List.append_assoc] at hnodup
  have hlast' := (List.nodup_middle.mp hnodup).notMem
  obtain ⟨e, hfind, hsymbol, -⟩ := (hopen'.label hdata' l').run hrun fun r hr n hn heq => by
    have hmem : n ∈ back.filterMap name? := List.mem_filterMap.mpr ⟨r, hr, heq⟩
    rcases List.mem_cons.mp hn with rfl | hn
    · exact hlast' (List.mem_append_right _ hmem)
    · rw [List.mem_singleton.mp hn] at hmem
      exact hlast (by simp [hmem])
  refine ⟨e, hfind _ (List.mem_cons_of_mem _ List.mem_cons_self), hfind _ List.mem_cons_self, ?_⟩
  -- The blob goes by one of the names that were given before the later label.
  have hrun' : (front ++ [Record.label l] ++ mid).foldlM State.record {} = .ok u := by
    rw [List.foldlM_append]
    exact bind_eq_ok.mpr ⟨_, hs, hu⟩
  have hgiven := hopen'.symbol_mem hrun'
  rw [hsymbol]
  intro heq
  rw [heq] at hgiven
  simp only [List.filterMap_append, List.filterMap_cons, hname] at hgiven
  exact hlast' (List.mem_append_left _ (by simpa using hgiven))

end DataIndex

end AsmBridge
