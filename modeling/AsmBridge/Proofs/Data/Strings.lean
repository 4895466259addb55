import AsmBridge.Proofs.Data.Elsewhere
import AsmBridge.Proofs.Data.Literals
import AsmBridge.Proofs.Data.Problems
import AsmBridge.Proofs.Source.Excursions
import AsmBridge.Proofs.Source.Terms

/-!
# Labelled strings

A label and a string directive with a row of literals are recorded as a label and a directive with
this row as its arguments, whether they stand in one line or in two and whatever comments stand
behind them (`exists_lines_of_row`). The index of a unit to which they are added has a blob of the
bytes that the literals spell (`exists_blob_of_strings`).
-/

namespace AsmBridge

open Literal

namespace Source

/-- The text of a label: its name and a colon, perhaps with blanks in front of either. -/
inductive IsLabelText (name : String) : List Char → Prop
  | intro {before between : List Char} (hname : IsSymbol name)
      (hbefore : ∀ c ∈ before, Text.isBlank c = true)
      (hbetween : ∀ c ∈ between, Text.isBlank c = true) :
      IsLabelText name (before ++ (name.toList ++ (between ++ [':'])))

/-- The text of a directive whose arguments are a row of literals. -/
inductive IsRowText (name : String) (bss : List (List UInt8)) : List Char → Prop
  | intro {gap row : List Char} (hgap : ∀ c ∈ gap, Text.isBlank c = true) (hne : gap ≠ [])
      (hrow : SpellsRow bss row) : IsRowText name bss (name.toList ++ (gap ++ row))

/-- The lines of a label and a directive whose arguments are a row of literals. Both stand in one
line or in two, with other lines only of blanks and comments between them. -/
inductive IsLabelledRow (label name : String) (bss : List (List UInt8)) :
    List (List Char) → Prop
  | together {s gap t tail : List Char} (hlabel : IsLabelText label s)
      (hgap : ∀ c ∈ gap, Text.isBlank c = true) (hrow : IsRowText name bss t)
      (htail : IsBlankLine tail) : IsLabelledRow label name bss [s ++ (gap ++ t) ++ tail]
  | apart {s gap t tail tail' : List Char} {between : List (List Char)}
      (hlabel : IsLabelText label s) (htail : IsBlankLine tail)
      (hbetween : ∀ line ∈ between, IsBlankLine line) (hgap : ∀ c ∈ gap, Text.isBlank c = true)
      (hrow : IsRowText name bss t) (htail' : IsBlankLine tail') :
      IsLabelledRow label name bss ((s ++ tail) :: (between ++ [gap ++ t ++ tail']))

/-! ## Labels -/

variable {label name : String} {bss : List (List UInt8)} {gap row s t tail : List Char}
  {terminated : Bool}

lemma isSymbolRest_of_isSymbol {name : String} (h : IsSymbol name) :
    ∀ c ∈ name.toList, Text.isSymbolRest c = true := by
  obtain ⟨c, rest, heq, hstart, hrest⟩ := h
  rw [heq]
  exact List.forall_mem_cons.mpr ⟨isSymbolRest_of_start hstart, hrest⟩

lemma isSymbolRest_of_isBlank {c : Char} (h : Text.isBlank c = true) :
    Text.isSymbolRest c = false := by
  by_contra hrest
  rw [Bool.not_eq_false] at hrest
  have hplain := plain_of_isTermChar (c := c) (by simp [isTermChar, hrest])
  exact absurd h (by simp [hplain.1])

/-- A symbol does not go on with blanks. -/
lemma head?_append_blank (hgap : ∀ c ∈ gap, Text.isBlank c = true)
    (hs : ∀ c ∈ s.head?, Text.isSymbolRest c = false) :
    ∀ c ∈ (gap ++ s).head?, Text.isSymbolRest c = false := by
  cases gap with
  | nil => exact hs
  | cons d gap =>
    rintro c ⟨⟩
    exact isSymbolRest_of_isBlank (hgap d List.mem_cons_self)

lemma label?_of_isSymbol (hname : IsSymbol name) (hgap : ∀ c ∈ gap, Text.isBlank c = true)
    (hs : s.head? ≠ some ':') : label? (name.toList ++ (gap ++ ':' :: s)) = some (name, s) := by
  obtain ⟨c, rest, heq, hstart, hrest⟩ := hname
  have hblank : Text.isBlank c = false :=
    (plain_of_isTermChar (by simp [isTermChar, isSymbolRest_of_start hstart])).1
  have hcolon : Text.isSymbolRest ':' = false := by decide
  have hhead : ∀ c ∈ (gap ++ ':' :: s).head?, Text.isSymbolRest c = false :=
    head?_append_blank hgap (by rintro c ⟨⟩; exact hcolon)
  have hfront : Text.trimLeft (name.toList ++ (gap ++ ':' :: s)) =
      c :: (rest ++ (gap ++ ':' :: s)) := by
    rw [heq]
    exact Text.trimLeft_eq_self (by rintro d ⟨⟩; exact hblank)
  have hbehind : Text.trimLeft (gap ++ ':' :: s) = ':' :: s := by
    rw [Text.trimLeft_append hgap]
    exact Text.trimLeft_eq_self (by rintro d ⟨⟩; rfl)
  unfold label?
  rw [hfront]
  simp only [hstart, Bool.not_true, Bool.false_eq_true, if_false,
    Text.takeWhile_append_of_head hrest hhead, Text.dropWhile_append_of_head hrest hhead, hbehind]
  split
  · rename_i more hmore
    rw [(List.cons.inj hmore).2] at hs
    exact absurd rfl hs
  · rename_i more _ hmore
    rw [← (List.cons.inj hmore).2, ← heq, String.ofList_toList]
  · rename_i hno
    exact absurd rfl (hno s)

lemma labels_of_isSymbol (hname : IsSymbol name) (hgap : ∀ c ∈ gap, Text.isBlank c = true)
    (hs : s.head? ≠ some ':') :
    labels (name.toList ++ (gap ++ ':' :: s)) =
      (name :: (labels (Text.trim s)).1, (labels (Text.trim s)).2) := by
  have hlabel := label?_of_isSymbol hname hgap hs
  rw [labels.eq_def]
  split
  · rename_i h
    cases hlabel.symm.trans h
  · rename_i name' rest h
    obtain ⟨rfl, rfl⟩ := Prod.mk.inj (Option.some.inj (hlabel.symm.trans h))
    rfl

/-- The label in front of a text. -/
lemma IsLabelText.labels_append (h : IsLabelText label s) (hhead : t.head? ≠ some ':')
    (hlast : ∀ c ∈ t.getLast?, Text.isBlank c = false) :
    labels (Text.trim (s ++ t)) =
      (label :: (labels (Text.trim t)).1, (labels (Text.trim t)).2) := by
  obtain ⟨hname, hbefore, hbetween⟩ := h
  rename_i before between
  have htrim : Text.trim (label.toList ++ (between ++ ':' :: t)) =
      label.toList ++ (between ++ ':' :: t) := by
    refine Text.trim_eq_self ?_ ?_
    · obtain ⟨c, rest, heq, hstart, -⟩ := hname
      rw [heq]
      rintro d ⟨⟩
      exact (plain_of_isTermChar (by simp [isTermChar, isSymbolRest_of_start hstart])).1
    · rw [List.getLast?_append_of_ne_nil _ (by simp),
        List.getLast?_append_of_ne_nil _ (List.cons_ne_nil _ _)]
      cases t with
      | nil =>
        rintro d ⟨⟩
        rfl
      | cons c t => exact hlast
  have happend : before ++ (label.toList ++ (between ++ [':'])) ++ t =
      before ++ (label.toList ++ (between ++ ':' :: t)) := by simp
  rw [happend, Text.trim_append_left hbefore, htrim, labels_of_isSymbol hname hbetween hhead]

/-- No comment begins in a label. -/
lemma IsLabelText.isUncommented (h : IsLabelText label s) : IsUncommented s := by
  obtain ⟨hname, hbefore, hbetween⟩ := h
  have hplain : ∀ c ∈ ['"', '#'], Text.isSymbolRest c = false := by decide
  have hlabel : IsUncommented label.toList := by
    refine isUncommented_of_plain fun c hc => ⟨?_, ?_⟩
    all_goals
      rintro rfl
      cases (isSymbolRest_of_isSymbol hname _ hc).symm.trans (hplain _ (by decide))
  exact (isUncommented_of_blank hbefore).append (hlabel.append
    ((isUncommented_of_blank hbetween).append (isUncommented_of_plain (by decide))))

/-! ## Directives of strings -/

/-- What the names of the directives of strings have in common. -/
lemma name_of_terminated? (h : Directive.terminated? name = some terminated) :
    (name.toList.head? = some '.' ∧ 2 ≤ name.toList.length) ∧
      (∀ c ∈ name.toList, Text.isSymbolRest c = true ∧ c ≠ '"' ∧ c ≠ '#') ∧
      Directive.isDataName name = true ∧ DataIndex.sectionSwitches.contains name = false := by
  have hall : ∀ p ∈ [(".ascii", false), (".asciz", true), (".string", true)],
      (p.1.toList.head? = some '.' ∧ 2 ≤ p.1.toList.length) ∧
        (∀ c ∈ p.1.toList, Text.isSymbolRest c = true ∧ c ≠ '"' ∧ c ≠ '#') ∧
        Directive.isDataName p.1 = true ∧ DataIndex.sectionSwitches.contains p.1 = false := by
    decide
  obtain ⟨front, back, heq, -⟩ := List.lookup_eq_some_iff.mp h
  exact hall (name, terminated) (by rw [heq]; simp)

namespace IsRowText

/-- No comment begins in the text of such a directive. -/
lemma isUncommented (h : IsRowText name bss t)
    (hname : Directive.terminated? name = some terminated) : IsUncommented t := by
  obtain ⟨hgap, -, hrow⟩ := h
  have hplain := (name_of_terminated? hname).2.1
  exact (isUncommented_of_plain fun c hc => (hplain c hc).2).append
    ((isUncommented_of_blank hgap).append hrow.isUncommented)

lemma ends (h : IsRowText name bss t) (hname : Directive.terminated? name = some terminated) :
    t.head? = some '.' ∧ t.getLast? = some '"' := by
  obtain ⟨hgap, hne, hrow⟩ := h
  rename_i gap row
  obtain ⟨⟨hhead, -⟩, -⟩ := name_of_terminated? hname
  have hrow' : row ≠ [] := by
    rintro rfl
    cases hrow.ends.1
  rw [List.head?_append, hhead, List.getLast?_append_of_ne_nil _ (by simp [hne]),
    List.getLast?_append_of_ne_nil _ hrow', hrow.ends.2]
  exact ⟨rfl, rfl⟩

lemma trim_eq (h : IsRowText name bss t) (hname : Directive.terminated? name = some terminated) :
    Text.trim t = t := by
  obtain ⟨hhead, hlast⟩ := h.ends hname
  refine Text.trim_eq_self ?_ ?_
  · rw [hhead]
    rintro c ⟨⟩
    rfl
  · rw [hlast]
    rintro c ⟨⟩
    rfl

/-- Such a directive is no label. -/
lemma labels_eq (h : IsRowText name bss t)
    (hname : Directive.terminated? name = some terminated) : labels t = ([], t) := by
  obtain ⟨hgap, -, hrow⟩ := h
  rename_i gap row
  obtain ⟨⟨hpoint, -⟩, hplain, -⟩ := name_of_terminated? hname
  obtain ⟨rest, heq⟩ := List.head?_eq_some_iff.mp hpoint
  rw [heq] at hplain ⊢
  have hrest : ∀ c ∈ rest, Text.isSymbolRest c = true := fun c hc =>
    (hplain c (List.mem_cons_of_mem _ hc)).1
  have hquote : Text.isSymbolRest '"' = false := by decide
  have hhead : ∀ c ∈ (gap ++ row).head?, Text.isSymbolRest c = false := by
    refine head?_append_blank hgap ?_
    rw [hrow.ends.1]
    rintro c ⟨⟩
    exact hquote
  have hfront : Text.trimLeft ('.' :: rest ++ (gap ++ row)) = '.' :: (rest ++ (gap ++ row)) :=
    Text.trimLeft_eq_self (by rintro c ⟨⟩; rfl)
  obtain ⟨row', hrow'⟩ := List.head?_eq_some_iff.mp hrow.ends.1
  have hbehind : Text.trimLeft (gap ++ row) = '"' :: row' := by
    rw [Text.trimLeft_append hgap, hrow']
    exact Text.trimLeft_eq_self (by rintro c ⟨⟩; rfl)
  have hnone : label? ('.' :: rest ++ (gap ++ row)) = none := by
    have hstart : Text.isSymbolStart '.' = true := rfl
    unfold label?
    rw [hfront]
    simp only [hstart, Bool.not_true, Bool.false_eq_true, if_false,
      Text.dropWhile_append_of_head hrest hhead, hbehind]
    rfl
  rw [labels.eq_def]
  split
  · rfl
  · rename_i h
    cases hnone.symm.trans h

lemma splitDirective?_eq (h : IsRowText name bss t)
    (hname : Directive.terminated? name = some terminated) :
    ∃ args, splitDirective? t = some (name, args) ∧ SpellsRow bss args.toList := by
  obtain ⟨hgap, hne, hrow⟩ := h
  rename_i gap row
  obtain ⟨⟨-, hlength⟩, hplain, -⟩ := name_of_terminated? hname
  have hwhole : ∀ c ∈ name.toList, (!Text.isBlank c) = true := by
    intro c hc
    have hterm := plain_of_isTermChar (c := c) (by simp [isTermChar, (hplain c hc).1])
    rw [hterm.1]
    rfl
  have hhead : ∀ c ∈ (gap ++ row).head?, (!Text.isBlank c) = false := by
    obtain ⟨d, gap, rfl⟩ := List.exists_cons_of_ne_nil hne
    rintro c ⟨⟩
    rw [hgap d List.mem_cons_self]
    rfl
  have htrim : Text.trim (gap ++ row) = row := by rw [Text.trim_append_left hgap, hrow.trim_eq]
  refine ⟨String.ofList row, ?_, by rwa [String.toList_ofList]⟩
  rw [splitDirective?, Text.takeWhile_append_of_head hwhole hhead,
    Text.dropWhile_append_of_head hwhole hhead, htrim, String.ofList_toList]
  exact if_neg (by omega)

end IsRowText

/-! ## Lines -/

namespace State

/-- A line with the directive of a row of literals, perhaps behind labels. -/
lemma exists_line_of_row {source : List Char} {names : List String}
    (hlabels : labels (bare source) = (names, t)) (hrow : IsRowText name bss t)
    (hname : Directive.terminated? name = some terminated) (s : State) (n : ℕ) :
    ∃ d : Directive, s.line (source, n) = .ok { s.withLabels source n with
        records := .directive d :: (s.withLabels source n).records } ∧
      d.name = name ∧ d.sect = some s.sect ∧ SpellsRow bss d.args.toList := by
  have hstatement : statementOf source = t := congrArg Prod.snd hlabels
  obtain ⟨args, hsplit, hargs⟩ := hrow.splitDirective?_eq hname
  obtain ⟨-, -, hdata, hswitch⟩ := name_of_terminated? hname
  have hdirective : directive? source = some (name, args) := by
    obtain ⟨rest, heq⟩ := List.head?_eq_some_iff.mp (hrow.ends hname).1
    rw [directive?, hstatement, heq]
    rwa [heq] at hsplit
  have hknown : (Section.isText (s.withLabels source n).sect && !isKnown name) = false := by
    rw [isKnown, hdata, Bool.or_true, Bool.not_true, Bool.and_false]
  exact ⟨_, line_eq_ok.mpr (.directive hdirective (switch_eq_self hswitch _ _) hknown), rfl,
    congrArg some (s.withLabels_sect source n), hargs⟩

/-- Lines of blanks and comments change nothing. -/
lemma lines_of_blank {lines : List (List Char)} (h : ∀ line ∈ lines, IsBlankLine line) (s : State)
    (n : ℕ) : (lines.zipIdx n).foldlM State.line s = .ok s := by
  induction lines generalizing n with
  | nil => rfl
  | cons line lines ih =>
    obtain ⟨hline, hlines⟩ := List.forall_mem_cons.mp h
    rw [List.zipIdx_cons]
    exact foldlM_cons_eq_ok.mpr ⟨s, line_of_bare hline.bare_eq s n, ih hlines (n + 1)⟩

/-- Lines that leave the sections alone may be put into a unit that is read: what they record stands
between the records of the unit. -/
lemma exists_readUnit_insert {text text' : String} {front written after : List (List Char)}
    {s s' : State} {new back : List Record} (hlines : text.toList.splitOn '\n' = front ++ after)
    (hlines' : text'.toList.splitOn '\n' = front ++ written ++ after)
    (hfront : (front.zipIdx 1).foldlM State.line {} = .ok s)
    (hwritten : (written.zipIdx (1 + front.length)).foldlM State.line s = .ok s')
    (hagrees : s.Agrees s') (hnew : s'.records = new ++ s.records)
    (hread : readUnit text = .ok (s.records.reverse ++ back)) :
    ∃ records, readUnit text' = .ok records ∧ records.map (·.unplaced) =
      (s.records.reverse ++ new.reverse ++ back).map (·.unplaced) := by
  obtain ⟨t, ht, hrecords⟩ := readUnit_eq_ok.mp hread
  rw [hlines, List.zipIdx_append, foldlM_append_eq_ok] at ht
  obtain ⟨s₁, hs₁, ht⟩ := ht
  obtain rfl := Except.ok.inj (hfront.symm.trans hs₁)
  obtain ⟨t', ht', -, last, last', hlast, hlast', hmap⟩ :=
    hagrees.exists_lines (.refl after) ht (1 + (front ++ written).length)
  have hback : last.reverse = back := by
    rw [hlast, List.reverse_append] at hrecords
    exact List.append_cancel_left hrecords
  refine ⟨t'.records.reverse, readUnit_eq_ok.mpr ⟨t', ?_, rfl⟩, ?_⟩
  · rw [hlines', List.zipIdx_append, List.zipIdx_append]
    exact foldlM_append_eq_ok.mpr ⟨s', foldlM_append_eq_ok.mpr ⟨s, hfront, hwritten⟩, ht'⟩
  · rw [hlast', hnew, ← hback]
    simp [hmap]

/-- The lines of a label and a row of literals record both, wherever they stand. -/
lemma exists_lines_of_row {written : List (List Char)} (h : IsLabelledRow label name bss written)
    (hname : Directive.terminated? name = some terminated) (s : State) (n : ℕ) :
    ∃ (l : Label) (d : Directive) (s' : State),
      (written.zipIdx n).foldlM State.line s = .ok s' ∧ s.Agrees s' ∧
      s'.records = [.directive d, .label l] ++ s.records ∧ (l.name = label ∧ l.sect = some s.sect) ∧
      d.name = name ∧ d.sect = some s.sect ∧ SpellsRow bss d.args.toList := by
  cases h with
  | @together front gap t tail hlabel hgap hrow htail =>
    have huncommented : IsUncommented (front ++ (gap ++ t)) := hlabel.isUncommented.append
      ((isUncommented_of_blank hgap).append (hrow.isUncommented hname))
    have hlabels : labels (bare (front ++ (gap ++ t) ++ tail)) = ([label], t) := by
      rw [huncommented.bare_append htail, hlabel.labels_append, Text.trim_append_left hgap,
        hrow.trim_eq hname, hrow.labels_eq hname]
      · cases gap with
        | nil =>
          rw [List.nil_append, (hrow.ends hname).1]
          decide
        | cons c gap =>
          rintro ⟨⟩
          cases hgap ':' List.mem_cons_self
      · rw [List.getLast?_append, (hrow.ends hname).2]
        rintro c ⟨⟩
        rfl
    obtain ⟨d, hline, hd⟩ := exists_line_of_row hlabels hrow hname s n
    have hwith := withLabels_eq s (front ++ (gap ++ t) ++ tail) n
    rw [labelsOf, hlabels] at hwith
    rw [hwith] at hline
    exact ⟨{ name := label, line := some n, sect := some s.sect }, d, _,
      foldlM_cons_eq_ok.mpr ⟨_, hline, rfl⟩, ⟨rfl, rfl, rfl⟩, rfl, ⟨rfl, rfl⟩, hd⟩
  | @apart front gap t tail tail' between hlabel htail hbetween hgap hrow htail' =>
    have hlabels : labels (bare (front ++ tail)) = ([label], []) := by
      have happend := hlabel.labels_append (t := []) (by decide) (by simp)
      rw [List.append_nil] at happend
      rw [hlabel.isUncommented.bare_append htail, happend, Text.trim_nil, labels_nil]
    have huncommented : IsUncommented (gap ++ t) :=
      (isUncommented_of_blank hgap).append (hrow.isUncommented hname)
    have hlabels' : labels (bare (gap ++ t ++ tail')) = ([], t) := by
      rw [huncommented.bare_append htail', Text.trim_append_left hgap, hrow.trim_eq hname,
        hrow.labels_eq hname]
    have hwith := withLabels_eq s (front ++ tail) n
    rw [labelsOf, hlabels] at hwith
    have hline : s.line (front ++ tail, n) = .ok (s.withLabels (front ++ tail) n) :=
      line_eq_ok.mpr (.labels (congrArg Prod.snd hlabels))
    obtain ⟨d, hline', hd⟩ := exists_line_of_row hlabels' hrow hname
      (s.withLabels (front ++ tail) n) (n + 1 + between.length)
    have hwith' : (s.withLabels (front ++ tail) n).withLabels (gap ++ t ++ tail')
        (n + 1 + between.length) = s.withLabels (front ++ tail) n := by
      rw [withLabels, labelsOf, hlabels']
      rfl
    rw [hwith'] at hline'
    rw [withLabels_sect] at hd
    have hlast : ([gap ++ t ++ tail'].zipIdx (n + 1 + between.length)).foldlM State.line
        (s.withLabels (front ++ tail) n) = .ok _ := foldlM_cons_eq_ok.mpr ⟨_, hline', rfl⟩
    have hrest := foldlM_append_eq_ok.mpr ⟨_, lines_of_blank hbetween _ (n + 1), hlast⟩
    rw [← List.zipIdx_append, hwith] at hrest
    rw [hwith] at hline
    exact ⟨{ name := label, line := some n, sect := some s.sect }, d, _,
      foldlM_cons_eq_ok.mpr ⟨_, hline, hrest⟩, ⟨rfl, rfl, rfl⟩, rfl, ⟨rfl, rfl⟩, hd⟩

end State

end Source

namespace DataIndex

variable {front back records : List Record} {l : Label} {d : Directive} {x : DataIndex}

/-! ## A label and a directive more -/

/-- Data belong to a label behind a label and a directive that are put between records only if they
do so without them, or if neither a label nor a switch stands behind these. -/
lemma isLabelled_of_insert {mid : List Record}
    (h : IsLabelled (front ++ .label l :: .directive d :: mid)) :
    IsLabelled (front ++ mid) ∨ ∀ r ∈ mid, role r ≠ .switch ∧ ∀ l, role r ≠ .label l := by
  induction mid using List.reverseRecOn with
  | nil => exact .inr (by simp)
  | append_singleton mid r ih =>
    rw [← List.cons_append, ← List.cons_append, ← List.append_assoc, isLabelled_append_iff] at h
    rw [← List.append_assoc, isLabelled_append_iff]
    by_cases hlabel : ∃ l, role r = .label l
    · exact .inl (.inl hlabel)
    · obtain ⟨h, hswitch⟩ := h.resolve_left hlabel
      refine (ih h).imp (fun h => .inr ⟨h, hswitch⟩) fun h => ?_
      exact List.forall_mem_append.mpr ⟨h, by simpa using ⟨hswitch, not_exists.mp hlabel⟩⟩

/-- A directive in front of the next label and the next switch is in the extent. -/
lemma mem_extent {mid : List Record} (h : ∀ r ∈ mid, role r ≠ .switch ∧ ∀ l, role r ≠ .label l)
    {r : Record} {e : Directive} (hr : role r = .directive e) (fills : Directive → Bool)
    (filled : Bool) : e ∈ extent fills filled (mid ++ r :: back) := by
  induction mid generalizing filled with
  | nil =>
    rw [List.nil_append, extent, hr]
    exact List.mem_cons_self
  | cons m mid ih =>
    obtain ⟨⟨hswitch, hlabel⟩, hmid⟩ := List.forall_mem_cons.mp h
    rw [List.cons_append, extent]
    cases hm : role m with
    | switch => exact absurd hm hswitch
    | label l => exact absurd hm (hlabel l)
    | directive e => exact List.mem_cons_of_mem _ (ih hmid _)
    | ignored => exact ih hmid _

/-- The role of a data directive in a read-only section. -/
lemma role_data (hsect : Section.isReadOnly (d.sect.getD "") = true)
    (hname : Directive.isDataName d.name = true) : role (.directive d) = .directive d := by
  rw [role, switches_of_isDataName hname, sectionOf, if_pos hsect]
  rfl

/-- A label is indexed wherever it stands. -/
lemma passes_label (hl : Section.isReadOnly (l.sect.getD "") = true) (front : List Record) :
    Passes front (.label l) := by
  have hrole : ∀ e, role (.label l) ≠ .directive e := by
    intro e he
    cases (role_label hl).symm.trans he
  exact ⟨fun e he => (nomatch he), fun i hi => (nomatch hi), fun e he => absurd he (hrole e),
    fun e he => absurd he (hrole e)⟩

/-- A directive whose bytes can be read is indexed wherever it stands. -/
lemma passes_data (hd : role (.directive d) = .directive d)
    (hname : Directive.isDataName d.name = true) {bytes : List UInt8} (hbytes : d.bytes = .ok bytes)
    (front : List Record) : Passes front (.directive d) := by
  refine ⟨fun e he => ?_, fun i hi => (nomatch hi), fun e he halign => ?_, fun e he _ _ n hn => ?_⟩
  · cases (switches_of_isDataName hname).symm.trans he
  · obtain rfl := Role.directive.inj (hd.symm.trans he)
    cases hname.symm.trans (Directive.isDataName_of_isAlignmentName halign)
  · obtain rfl := Role.directive.inj (hd.symm.trans he)
    cases hbytes.symm.trans hn

/-- A label of read-only data and a directive whose bytes can be read may be put between the records
of a unit, if no other data directive stands behind them up to the next label or switch. -/
lemma exists_ofRecords_insert (hx : ofRecords (front ++ back) = .ok x)
    (hl : Section.isReadOnly (l.sect.getD "") = true)
    (hd : role (.directive d) = .directive d) (hname : Directive.isDataName d.name = true)
    {bytes : List UInt8} (hbytes : d.bytes = .ok bytes)
    (hback : ∀ e ∈ extent Directive.fills d.fills back, Directive.isDataName e.name = false) :
    ∃ y, ofRecords (front ++ .label l :: .directive d :: back) = .ok y := by
  have hpasses := (ofRecords_succeeds_iff _).mp ⟨x, hx⟩
  have hbehind : ∀ mid r rest, back = mid ++ r :: rest →
      Passes (front ++ .label l :: .directive d :: mid) r := by
    rintro mid r rest rfl
    have h := hpasses (front ++ mid) r rest (List.append_assoc _ _ _).symm
    refine ⟨h.switch, h.instruction, h.alignment, fun e he hdata hlabelled => ?_⟩
    rcases isLabelled_of_insert hlabelled with hlabelled | hmid
    · exact h.data e he hdata hlabelled
    · cases hdata.symm.trans (hback e (mem_extent hmid he _ _))
  rw [ofRecords_succeeds_iff]
  intro f r b heq
  rcases List.append_eq_append_iff.mp heq with ⟨mid, rfl, hmid⟩ | ⟨mid, rfl, hmid⟩
  · rcases mid with _ | ⟨m, _ | ⟨m', mid⟩⟩
    · obtain ⟨rfl, -⟩ := List.cons_eq_cons.mp hmid
      exact passes_label hl _
    · obtain ⟨rfl, hrest⟩ := List.cons_eq_cons.mp hmid
      obtain ⟨rfl, -⟩ := List.cons_eq_cons.mp hrest
      exact passes_data hd hname hbytes _
    · obtain ⟨rfl, hrest⟩ := List.cons_eq_cons.mp hmid
      obtain ⟨rfl, hback'⟩ := List.cons_eq_cons.mp hrest
      exact hbehind mid r b hback'
  · rcases mid with _ | ⟨m, mid⟩
    · obtain ⟨rfl, -⟩ := List.cons.inj hmid
      exact passes_label hl _
    · obtain ⟨rfl, -⟩ := List.cons.inj hmid
      exact hpasses f r (mid ++ back) (by rw [List.append_assoc, List.cons_append])

/-- What such a label finds. -/
lemma exists_find?_insert (hx : ofRecords (front ++ .label l :: .directive d :: back) = .ok x)
    (hl : Section.isReadOnly (l.sect.getD "") = true)
    (hd : role (.directive d) = .directive d) {bytes : List UInt8} (hbytes : d.bytes = .ok bytes)
    (hback : ∀ e ∈ extent Directive.fills d.fills back, Directive.isDataName e.name = false)
    (hagain : ∀ r ∈ back, name? r ≠ some l.name) :
    ∃ b, x.find? l.name = some b ∧ b.data = bytes ∧
      (b.problem = none ↔ ∀ e, IsAhead front e → e.IsReadable) := by
  have hdecoded : d.decoded = bytes := by
    rw [Directive.decoded, hbytes]
    rfl
  have hother : ∀ r ∈ Record.directive d :: back, name? r ≠ some l.name := by
    refine List.forall_mem_cons.mpr ⟨?_, hagain⟩
    rw [name?, hd]
    exact (Option.some_ne_none _).symm
  have hextent : extent Directive.fills false (.directive d :: back) =
      d :: extent Directive.fills d.fills back := by
    rw [extent, hd]
    rfl
  obtain ⟨b, hfind, hdata, -⟩ := find?_of_label hx hl hother
  obtain ⟨c, before, hfind', hproblem, hbefore, hnone⟩ := find?_problem hx hl hother
  obtain rfl := Option.some.inj (hfind.symm.trans hfind')
  rw [hextent] at hdata hproblem
  refine ⟨b, hfind, ?_, ?_⟩
  · have hnil : (extent Directive.fills d.fills back).flatMap (·.decoded) = [] :=
      List.flatMap_eq_nil_iff.mpr fun e he => Directive.decoded_of_isDataName (hback e he)
    rw [hdata, List.flatMap_cons, hnil, List.append_nil, hdecoded]
  · have hreadable : ∀ e ∈ d :: extent Directive.fills d.fills back, e.IsReadable :=
      List.forall_mem_cons.mpr ⟨fun _ => ⟨bytes, hbytes⟩, fun e he hname => by
        cases hname.symm.trans (hback e he)⟩
    rw [hproblem, Directive.lastProblem_eq_none, and_iff_left hreadable]
    refine ⟨hnone, fun h => ?_⟩
    rw [Option.eq_none_iff_forall_ne_some]
    intro reason hreason
    obtain ⟨e, he, hproblem⟩ := hbefore reason hreason
    cases (Directive.problem?_eq_none.mpr (h e he)).symm.trans hproblem

/-! ## Strings of a unit -/

/-- A label finds its blob, or that it has no data, exactly if there is no problem with the blob. -/
lemma lookup_eq_iff {name : String} {b : Blob} (h : x.find? name = some b) :
    x.lookup (some name) = (if b.data = [] then .error (.dataEmpty name) else .ok b) ↔
      b.problem = none := by
  simp only [lookup, Option.bind_some, h, symbolText, Option.getD_some]
  cases b.problem with
  | some reason => split_ifs <;> simp
  | none => split_ifs <;> simp_all

/-- Lines that hold a label and a row of strings may be put into a unit that is read and indexed, at
any place in a read-only section. The label then names a blob of the bytes that the literals spell,
if it is not given again and if no other data directive stands behind the strings up to the next
label or switch. It is found with these bytes, or if there are none as a label of no data, unless a
directive in front of it, behind another label without data, cannot be read. -/
theorem exists_blob_of_strings {text text' label name : String}
    {front written after : List (List Char)} {s : Source.State} {bss : List (List UInt8)}
    {terminated : Bool} (hlines : text.toList.splitOn '\n' = front ++ after)
    (hlines' : text'.toList.splitOn '\n' = front ++ written ++ after)
    (hwritten : Source.IsLabelledRow label name bss written)
    (hname : Directive.terminated? name = some terminated)
    (hfront : (front.zipIdx 1).foldlM Source.State.line {} = .ok s)
    (hsect : Section.isReadOnly s.sect = true)
    (hread : Source.readUnit text = .ok (s.records.reverse ++ back))
    (hindex : ofRecords (s.records.reverse ++ back) = .ok x)
    (hagain : ∀ r ∈ back, name? r ≠ some label)
    (hbehind : ∀ d ∈ extent Directive.fills (!(Directive.stringData terminated bss).isEmpty) back,
      Directive.isDataName d.name = false) :
    ∃ records y b, Source.readUnit text' = .ok records ∧ ofRecords records = .ok y ∧
      y.find? label = some b ∧ b.data = Directive.stringData terminated bss ∧
      (y.lookup (some label) = (if b.data = [] then .error (.dataEmpty label) else .ok b) ↔
        ∀ d, IsAhead s.records.reverse d → d.IsReadable) := by
  obtain ⟨l, d, s', hrun, hagrees, hrecords, ⟨rfl, hl⟩, rfl, hd, hrow⟩ :=
    Source.State.exists_lines_of_row hwritten hname s (1 + front.length)
  have hbytes := Directive.bytes_of_spells hname hrow
  have hdata : Directive.isDataName d.name = true := (Source.name_of_terminated? hname).2.2.1
  have hrole : role (.directive d) = .directive d := role_data (by rwa [hd]) hdata
  have hfills : d.fills = !(Directive.stringData terminated bss).isEmpty := by
    rw [Directive.fills, Directive.decoded, hbytes]
    rfl
  rw [← hfills] at hbehind
  obtain ⟨records, hread', heq⟩ := Source.State.exists_readUnit_insert hlines hlines' hfront hrun
    hagrees hrecords hread
  obtain ⟨x', hx'⟩ := exists_ofRecords_insert hindex (by rwa [hl]) hrole hdata hbytes hbehind
  obtain ⟨b, hb, hbdata, hproblem⟩ :=
    exists_find?_insert hx' (by rwa [hl]) hrole hbytes hbehind hagain
  obtain ⟨y, hy, hmoved⟩ := exists_ofRecords (heq.trans (by simp)) hx'
  have hrel := hmoved.find? l.name
  rw [hb] at hrel
  cases hfind : y.find? l.name with
  | none =>
    rw [hfind] at hrel
    cases hrel
  | some c =>
    rw [hfind] at hrel
    obtain hc : b.IsMoved c := by
      cases hrel
      assumption
    refine ⟨records, y, c, hread', hy, hfind, hc.data.trans hbdata, ?_⟩
    rw [lookup_eq_iff hfind, ← hproblem, ← Option.not_isSome_iff_eq_none,
      ← Option.not_isSome_iff_eq_none, hc.problem]

/-- Strings with the signs of comments, arguments and labels, escaped quotes and backslashes, and a
digit behind an octal escape, put in front of other data. -/
theorem exists_blob_of_strings_of_signs :
    let text' := String.join [
      ".section .rodata\n", "s: .asciz \"a#,:\\\"\\\\\\0011\" , \"\"# the \"s\n", "t: .long 1"]
    ∃ records y b, Source.readUnit text' = .ok records ∧ ofRecords records = .ok y ∧
      y.lookup (some "s") = .ok b ∧ b.data = [97, 35, 44, 58, 34, 92, 1, 49, 0, 0] := by
  intro text'
  let front : List (List Char) := [".section .rodata".toList]
  let rodata : Record := .directive ⟨".section", ".rodata", some 1, some ".rodata"⟩
  let back : List Record := [.label ⟨"t", some 2, some ".rodata"⟩,
    .directive ⟨".long", "1", some 2, some ".rodata"⟩]
  obtain ⟨s, hfront, hsect, hrecords⟩ : ∃ s, (front.zipIdx 1).foldlM Source.State.line {} = .ok s ∧
      s.sect = ".rodata" ∧ s.records = [rodata] := exists_ok_of_any (by decide +kernel)
  obtain ⟨_, hread, rfl⟩ : ∃ records, Source.readUnit ".section .rodata\nt: .long 1" = .ok records ∧
      records = [rodata] ++ back := exists_ok_of_any (by decide +kernel)
  obtain ⟨x, hindex, -⟩ : ∃ x, ofRecords ([rodata] ++ back) = .ok x ∧ True :=
    exists_ok_of_any (by decide)
  have hplain : ∀ c ∈ "a#,:1".toList, SpellsByte (UInt8.ofNat c.toNat) [c] := by
    intro c hc
    have hall : ∀ c ∈ "a#,:1".toList, 32 ≤ c.toNat ∧ c.toNat ≤ 126 ∧ c ≠ '"' ∧ c ≠ '\\' := by
      decide
    obtain ⟨hlow, hhigh, hquote, hescape⟩ := hall c hc
    exact .plain hlow hhigh hquote hescape
  have hbytes : SpellsBytes [97, 35, 44, 58, 34, 92, 1, 49] "a#,:\\\"\\\\\\0011".toList :=
    .cons (hplain 'a' (by decide)) (.cons (hplain '#' (by decide)) (.cons (hplain ',' (by decide))
      (.cons (hplain ':' (by decide)) (.cons (.letter (c := '"') (by decide))
        (.cons (.letter (c := '\\') (by decide))
          (.cons (.octal (i := 0) (j := 0) (k := 1) (by decide) (by decide) (by decide))
            (.cons (hplain '1' (by decide)) .nil)))))))
  let row : List Char := '"' :: ("a#,:\\\"\\\\\\0011".toList ++ ['"']) ++ [' '] ++
    ',' :: ([' '] ++ ('"' :: ([] ++ ['"'])))
  have hrow : SpellsRow [[97, 35, 44, 58, 34, 92, 1, 49], []] row :=
    .cons hbytes (by decide) (by decide) (.one .nil)
  have hlabel : Source.IsLabelText "s" ([] ++ ("s".toList ++ ([] ++ [':']))) :=
    .intro ⟨'s', [], rfl, by decide, by decide⟩ (by decide) (by decide)
  have hgap : ∀ c ∈ [' '], Text.isBlank c = true := by decide
  have htext : Source.IsRowText ".asciz" _ (".asciz".toList ++ ([' '] ++ row)) :=
    .intro hgap (by decide) hrow
  have htail : Source.IsBlankLine ([] ++ '#' :: " the \"s".toList) := .comment (by decide) _
  let line : List Char := [] ++ ("s".toList ++ ([] ++ [':'])) ++
    ([' '] ++ (".asciz".toList ++ ([' '] ++ row))) ++ ([] ++ '#' :: " the \"s".toList)
  have hwritten : Source.IsLabelledRow "s" ".asciz" _ [line] :=
    .together hlabel hgap htext htail
  have hname : Directive.terminated? ".asciz" = some true := by decide
  have hlines : ".section .rodata\nt: .long 1".toList.splitOn '\n' =
      front ++ ["t: .long 1".toList] := by decide
  have hlines' : text'.toList.splitOn '\n' = front ++ [line] ++ ["t: .long 1".toList] := by
    decide
  have hreadOnly : Section.isReadOnly s.sect = true := by
    rw [hsect]
    decide
  have hahead : ∀ d, IsAhead s.records.reverse d → d.IsReadable := by
    rintro d ⟨before, l, after, heq, -⟩
    have hmem : Record.label l ∈ s.records.reverse := by
      rw [heq]
      simp
    rw [hrecords] at hmem
    simp [rodata] at hmem
  obtain ⟨records, y, b, hread', hindex', hfind, hdata, hlookup⟩ :=
    exists_blob_of_strings hlines hlines' hwritten hname hfront hreadOnly (by rwa [hrecords])
      (by rwa [hrecords]) (by decide) (by decide)
  refine ⟨records, y, b, hread', hindex', ?_, hdata⟩
  have hsome := hlookup.mpr hahead
  rwa [if_neg (by rw [hdata]; decide)] at hsome

end DataIndex

end AsmBridge
