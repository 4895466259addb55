import AsmBridge.Proofs.Source.Readings

/-!
# Quotes and comments

A string in double quotes ends at the first quote that no backslash escapes. The comment of a line
is looked for outside of such strings: behind a line in which all strings are closed a number sign
begins a comment, whatever follows it, and the statement of the line stays the same
(`bare_append_comment`).
-/

namespace AsmBridge.Source

/-- What may stand between the quotes of a string: characters other than quotes and backslashes, and
backslashes with the character that each one escapes. -/
inductive IsStringBody : List Char → Prop
  | nil : IsStringBody []
  | plain {c : Char} {body : List Char} (hquote : c ≠ '"') (hescape : c ≠ '\\')
      (hbody : IsStringBody body) : IsStringBody (c :: body)
  | escape (c : Char) {body : List Char} (hbody : IsStringBody body) :
      IsStringBody ('\\' :: c :: body)

/-- All strings of the line are closed, up to its comment if it has one. -/
inductive IsClosed : List Char → Prop
  | nil : IsClosed []
  | plain {c : Char} {rest : List Char} (hquote : c ≠ '"') (hrest : IsClosed rest) :
      IsClosed (c :: rest)
  | string {body rest : List Char} (hbody : IsStringBody body) (hrest : IsClosed rest) :
      IsClosed ('"' :: (body ++ '"' :: rest))
  | comment (rest : List Char) : IsClosed ('#' :: rest)

variable {body line t : List Char}

lemma IsClosed.plain_append (h : ∀ c ∈ line, c ≠ '"') (ht : IsClosed t) : IsClosed (line ++ t) := by
  induction line with
  | nil => exact ht
  | cons c line ih =>
    obtain ⟨hc, hline⟩ := List.forall_mem_cons.mp h
    exact .plain hc (ih hline)

lemma splitComment_cons {q : QuoteState} {c : Char}
    (hc : (c == '#' && !q.quoted && !q.escaped) = false) (s : List Char) :
    splitComment q (c :: s) = (c :: (splitComment (q.step c) s).1, (splitComment (q.step c) s).2) := by
  rw [splitComment, hc]
  rfl

/-! ## Comments -/

/-- The comment of a line that begins with the text is looked for behind it. -/
def IsUncommented (s : List Char) : Prop :=
  ∀ t, splitComment {} (s ++ t) = (s ++ (splitComment {} t).1, (splitComment {} t).2)

lemma IsUncommented.append {s : List Char} (hs : IsUncommented s) (ht : IsUncommented t) :
    IsUncommented (s ++ t) := by
  intro u
  rw [List.append_assoc, hs, ht, List.append_assoc]

/-- No comment begins without a number sign. -/
lemma isUncommented_of_plain {s : List Char} (hs : ∀ c ∈ s, c ≠ '"' ∧ c ≠ '#') :
    IsUncommented s := by
  intro t
  induction s with
  | nil => rfl
  | cons c s ih =>
    obtain ⟨⟨hquote, hsharp⟩, hs⟩ := List.forall_mem_cons.mp hs
    have hstep : QuoteState.step {} c = {} := by simp [QuoteState.step, hquote]
    rw [List.cons_append, splitComment_cons (by simp [hsharp]), hstep, ih hs]
    rfl

lemma isUncommented_of_blank {gap : List Char} (hgap : ∀ c ∈ gap, Text.isBlank c = true) :
    IsUncommented gap := by
  refine isUncommented_of_plain fun c hc => ⟨?_, ?_⟩
  all_goals
    rintro rfl
    cases hgap _ hc

/-- No comment begins in a string. -/
lemma isUncommented_string (hbody : IsStringBody body) : IsUncommented ('"' :: (body ++ ['"'])) := by
  have hquoted : ∀ s, splitComment { quoted := true } (body ++ '"' :: s) =
      (body ++ '"' :: (splitComment {} s).1, (splitComment {} s).2) := by
    intro s
    induction hbody with
    | nil =>
      rw [List.nil_append, splitComment_cons (by rfl)]
      rfl
    | @plain c body hquote hescape _ ih =>
      have hstep : QuoteState.step { quoted := true } c = { quoted := true } := by
        simp [QuoteState.step, hquote, hescape]
      rw [List.cons_append, splitComment_cons (by simp), hstep, ih]
      rfl
    | @escape c body _ ih =>
      have hstep : QuoteState.step { quoted := true } '\\' = { quoted := true, escaped := true } :=
        rfl
      have hstep' : QuoteState.step { quoted := true, escaped := true } c = { quoted := true } := rfl
      rw [List.cons_append, List.cons_append, splitComment_cons (by rfl), hstep,
        splitComment_cons (by simp), hstep', ih]
      rfl
  intro s
  have hstep : QuoteState.step {} '"' = { quoted := true } := rfl
  rw [List.cons_append, List.append_assoc, List.singleton_append, splitComment_cons (by rfl), hstep,
    hquoted]
  simp

/-- Behind a line in which all strings are closed the comment is looked for anew, unless the line
has one already. -/
lemma splitComment_append (hline : IsClosed line) (t : List Char) :
    (splitComment {} (line ++ t)).1 = (splitComment {} line).1 ++
      if (splitComment {} line).2.isSome then [] else (splitComment {} t).1 := by
  induction hline with
  | nil => rfl
  | @plain c rest hquote _ ih =>
    by_cases hc : c = '#'
    · rw [hc]
      rfl
    · have hstep : QuoteState.step {} c = {} := by simp [QuoteState.step, hquote]
      have hnone : (c == '#' && !QuoteState.quoted {} && !QuoteState.escaped {}) = false := by
        simp [hc]
      rw [List.cons_append, splitComment_cons hnone, splitComment_cons hnone, hstep, ih]
      rfl
  | @string body rest hbody _ ih =>
    have hstring : ∀ s, '"' :: (body ++ '"' :: s) = '"' :: (body ++ ['"']) ++ s := by simp
    rw [hstring, List.append_assoc, isUncommented_string hbody, isUncommented_string hbody, ih,
      List.append_assoc]
  | comment rest => rfl

/-- A comment behind a line in which all strings are closed does not change what else is in it. -/
lemma bare_append_comment (hline : IsClosed line) {gap : List Char}
    (hgap : ∀ c ∈ gap, Text.isBlank c = true) (comment : List Char) :
    bare (line ++ (gap ++ '#' :: comment)) = bare line := by
  have hbare : ∀ s, bare s = Text.trim (splitComment {} s).1 := fun _ => rfl
  have hcomment : (splitComment {} ('#' :: comment)).1 = [] := rfl
  rw [hbare, hbare, splitComment_append hline]
  split
  · rw [List.append_nil]
  · rw [isUncommented_of_blank hgap, hcomment, List.append_nil, Text.trim_append_right hgap]

/-- A line of blanks and perhaps a comment. -/
inductive IsBlankLine : List Char → Prop
  | blank {gap : List Char} (hgap : ∀ c ∈ gap, Text.isBlank c = true) : IsBlankLine gap
  | comment {gap : List Char} (hgap : ∀ c ∈ gap, Text.isBlank c = true) (comment : List Char) :
      IsBlankLine (gap ++ '#' :: comment)

/-- Behind a text in which no comment begins blanks and a comment say nothing. -/
lemma IsUncommented.bare_append {s tail : List Char} (hs : IsUncommented s)
    (htail : IsBlankLine tail) : bare (s ++ tail) = Text.trim s := by
  have hbare : ∀ s, bare s = Text.trim (splitComment {} s).1 := fun _ => rfl
  have hcomment : ∀ comment, splitComment {} ('#' :: comment) = ([], some comment) := fun _ => rfl
  rw [hbare, hs]
  cases htail with
  | @blank gap hgap =>
    have hgap' := isUncommented_of_blank hgap []
    rw [List.append_nil] at hgap'
    rw [hgap']
    exact Text.trim_append_right (by simpa [splitComment] using hgap)
  | @comment gap hgap comment =>
    rw [isUncommented_of_blank hgap, hcomment]
    exact Text.trim_append_right (by simpa using hgap)

/-- A line of blanks and perhaps a comment has neither labels nor a statement. -/
lemma IsBlankLine.bare_eq (h : IsBlankLine line) : bare line = [] := by
  have hnil : IsUncommented [] := isUncommented_of_blank (by simp)
  exact hnil.bare_append h

/-! ## Rows of lines with other comments -/

/-- The second row of lines is the first one with lines of blanks and comments between its lines,
and with comments behind lines in which all strings are closed. -/
inductive IsRecommented : List (List Char) → List (List Char) → Prop
  | nil : IsRecommented [] []
  | keep (line : List Char) {rest rest' : List (List Char)} (hrest : IsRecommented rest rest') :
      IsRecommented (line :: rest) (line :: rest')
  | insert {line : List Char} {rest rest' : List (List Char)} (hline : IsBlankLine line)
      (hrest : IsRecommented rest rest') : IsRecommented rest (line :: rest')
  | append {line gap : List Char} {rest rest' : List (List Char)} (hline : IsClosed line)
      (hgap : ∀ c ∈ gap, Text.isBlank c = true) (comment : List Char)
      (hrest : IsRecommented rest rest') :
      IsRecommented (line :: rest) ((line ++ (gap ++ '#' :: comment)) :: rest')

/-- Rows that differ in comments and blank lines only hold the same statements. -/
lemma IsRecommented.isRespaced {sources sources' : List (List Char)}
    (h : IsRecommented sources sources') : State.IsRespaced sources sources' := by
  induction h with
  | nil => exact .nil
  | keep line _ ih => exact .line rfl ih
  | insert hline _ ih => exact .blank hline.bare_eq ih
  | append hline hgap comment _ ih => exact .line (bare_append_comment hline hgap comment) ih

/-- A text of lines that differ from those of another one in comments and blank lines only is read
as the same records, but for their places. -/
lemma exists_readUnit_of_isRecommented {text text' : String} {records : List Record}
    (htext : IsRecommented (text.toList.splitOn '\n') (text'.toList.splitOn '\n'))
    (h : readUnit text = .ok records) :
    ∃ records', readUnit text' = .ok records' ∧
      records'.map (·.unplaced) = records.map (·.unplaced) := by
  obtain ⟨s, hs, rfl⟩ := readUnit_eq_ok.mp h
  have hagrees : State.Agrees {} {} := ⟨rfl, rfl, rfl⟩
  obtain ⟨t, ht, -, new, new', hnew, hnew', hmap⟩ := hagrees.exists_lines htext.isRespaced hs 1
  refine ⟨t.records.reverse, readUnit_eq_ok.mpr ⟨t, ht, rfl⟩, ?_⟩
  rw [hnew, hnew', List.append_nil, List.append_nil, List.map_reverse, List.map_reverse, hmap]

end AsmBridge.Source
