import AsmBridge.Proofs.Signature.Declarations

/-!
# A file of declarations that is read back

The declarations that are written for signatures are read back as signatures with the same arguments
and the same result, under the symbols that they are written with, as far as these are names
(`read_goDeclarations`). All other lines of the file are passed over, and so are declarations under
symbols that are no names.
-/

namespace AsmBridge

/-! ## Lines -/

section Lines

open RawDeclaration

variable {line rest : List Char} {c : Char}

/-- The rest of a line is passed over. -/
lemma readAll_false (h : '\n' ∉ line) :
    readAll false (line ++ '\n' :: rest) = readAll true rest := by
  induction line with
  | nil =>
    rw [List.nil_append, readAll]
    rfl
  | cons c line ih =>
    rw [List.mem_cons, not_or] at h
    have hc : (c == '\n') = false := beq_eq_false_iff_ne.mpr (Ne.symm h.1)
    rw [List.cons_append, readAll]
    simp only [Bool.false_eq_true, if_false, hc]
    exact ih h.2

/-- A line on which no declaration begins is passed over. -/
lemma readAll_of_read?_eq_none (h : '\n' ∉ line) (hread : read? (line ++ '\n' :: rest) = none) :
    readAll true (line ++ '\n' :: rest) = readAll true rest := by
  cases line with
  | nil =>
    rw [List.nil_append] at hread ⊢
    rw [readAll]
    simp only [if_true, hread]
    rfl
  | cons c line =>
    rw [List.mem_cons, not_or] at h
    have hc : (c == '\n') = false := beq_eq_false_iff_ne.mpr (Ne.symm h.1)
    rw [List.cons_append] at hread ⊢
    rw [readAll]
    simp only [if_true, hread, hc]
    exact readAll_false h.2

/-- A line that is a declaration is read as it. -/
lemma readAll_of_read?_eq_some {d : RawDeclaration} (hne : line ≠ [])
    (hread : read? (line ++ '\n' :: rest) = some (d, '\n' :: rest)) :
    readAll true (line ++ '\n' :: rest) = (d, String.ofList line) :: readAll true rest := by
  obtain ⟨c, line, rfl⟩ := List.exists_cons_of_ne_nil hne
  rw [List.cons_append] at hread ⊢
  rw [readAll]
  simp only [if_true, hread]
  have hlength : (c :: (line ++ '\n' :: rest)).length - ('\n' :: rest).length = line.length + 1 := by
    simp only [List.length_cons, List.length_append]
    omega
  have htake : (c :: (line ++ '\n' :: rest)).take (line.length + 1) = c :: line := by
    rw [List.take_succ_cons, List.take_left']
    rfl
  rw [hlength, htake, Nat.add_sub_cancel, List.drop_left' rfl]
  congr 1
  exact @readAll_false [] _ List.not_mem_nil

/-- Behind the blanks at its front the text has another letter than a declaration. -/
def BeginsNone (s : List Char) : Prop := ∀ c ∈ (Text.trimLeft s).head?, c ≠ 'f'

lemma beginsNone_nil : BeginsNone [] := fun _ h => nomatch h

lemma beginsNone_cons (hc : Text.isBlank c = false) (hne : c ≠ 'f') : BeginsNone (c :: rest) := by
  intro d hd
  rw [Text.trimLeft_eq_self (by simpa using hc)] at hd
  exact Option.some.inj hd ▸ hne

lemma BeginsNone.blank (h : BeginsNone rest) (hc : Text.isBlank c = true) :
    BeginsNone (c :: rest) := by
  intro d hd
  rw [← List.singleton_append, Text.trimLeft_append (by simpa using hc)] at hd
  exact h d hd

/-- A line that begins with another letter than a declaration is passed over. -/
lemma readAll_of_beginsNone (h : '\n' ∉ line) (hbegins : BeginsNone (line ++ '\n' :: rest)) :
    readAll true (line ++ '\n' :: rest) = readAll true rest := by
  refine readAll_of_read?_eq_none h ?_
  have hfunc : Text.after? "func" (Text.trimLeft (line ++ '\n' :: rest)) = none := by
    cases hafter : Text.after? "func" (Text.trimLeft (line ++ '\n' :: rest)) with
    | none => rfl
    | some t =>
      have happend := List.isPrefixOf?_eq_some_iff_append_eq.mp hafter
      rw [BeginsNone, ← happend] at hbegins
      exact absurd rfl (hbegins 'f' rfl)
  rw [read?, hfunc]
  rfl

end Lines

/-! ## Files -/

section Files

/-- What is read from the declaration of a signature under a symbol. -/
def readsAs (f : String × Signature) : Option (RawDeclaration × String) :=
  if IsName f.1 then some (rawDeclaration f.1 f.2, f.2.declarationAs f.1) else none

variable {fs : List (String × Signature)}

/-- The declaration of a signature is one line. -/
lemma notMem_declarationAs {f : String × Signature} (hsymbol : IsSymbolText f.1)
    (h : f.2.IsListed) : '\n' ∉ (f.2.declarationAs f.1).toList := by
  have hname : '\n' ∉ f.1.toList := by
    intro hmem
    have hblank := (plain_of_isSymbolRest (hsymbol _ hmem)).1
    revert hblank
    decide
  have hargs : '\n' ∉ argumentRow f.2.args := fun hmem =>
    (plain_of_mem_argumentRow h.args hmem).2 rfl
  have hresult : '\n' ∉ resultText f.2 := by
    unfold resultText
    cases hr : f.2.result with
    | none => exact List.not_mem_nil
    | some r =>
      intro hmem
      simp only [List.mem_cons, List.mem_append, List.not_mem_nil, or_false] at hmem
      rcases hmem with hmem | hmem | hmem | hmem
      · revert hmem
        decide
      · revert hmem
        decide
      · exact (plain_of_mem_text (h.result r hr).1 hmem).2.2 rfl
      · revert hmem
        decide
  rw [toList_declarationAs]
  simp only [List.mem_append, List.mem_cons, not_or]
  exact ⟨by decide, hname, by decide, hargs, by decide, hresult⟩

/-- A declaration with its directive is read, and what follows it. -/
lemma readAll_stubText {f : String × Signature} (hsymbol : IsSymbolText f.1) (h : f.2.IsListed)
    (rest : List Char) :
    RawDeclaration.readAll true ((stubText f.1 f.2).toList ++ '\n' :: rest) =
      (readsAs f).toList ++ RawDeclaration.readAll true rest := by
  have hstub : (stubText f.1 f.2).toList ++ '\n' :: rest = "//go:noescape".toList ++
      '\n' :: ((f.2.declarationAs f.1).toList ++ '\n' :: rest) := by
    rw [stubText, String.toList_append]
    simp
  have hread := read?_declarationAs hsymbol h rest
  rw [hstub, readAll_of_beginsNone (by decide) (beginsNone_cons (by decide) (by decide)), readsAs]
  split_ifs at hread ⊢ with hname
  · have hne : (f.2.declarationAs f.1).toList ≠ [] := by
      rw [toList_declarationAs]
      simp
    rw [readAll_of_read?_eq_some hne hread, String.ofList_toList]
    rfl
  · rw [readAll_of_read?_eq_none (notMem_declarationAs hsymbol h) hread]
    rfl

/-- The declarations of a file. -/
def stubTexts (fs : List (String × Signature)) : List Char :=
  (String.intercalate "\n\n" (fs.map fun f => stubText f.1 f.2) ++ "\n").toList

lemma stubTexts_singleton (f : String × Signature) :
    stubTexts [f] = (stubText f.1 f.2).toList ++ ['\n'] := by
  rw [stubTexts, List.map_singleton, String.intercalate_singleton, String.toList_append]
  rfl

lemma stubTexts_cons (f g : String × Signature) (fs : List (String × Signature)) :
    stubTexts (f :: g :: fs) = (stubText f.1 f.2).toList ++ '\n' :: '\n' :: stubTexts (g :: fs) := by
  rw [stubTexts, List.map_cons, List.map_cons, String.intercalate_cons_cons]
  simp [stubTexts]

/-- Before its declarations a file has none. -/
lemma beginsNone_stubTexts (fs : List (String × Signature)) : BeginsNone (stubTexts fs) := by
  have hstub : ∀ (f : String × Signature) (t : List Char),
      BeginsNone ((stubText f.1 f.2).toList ++ t) := by
    intro f t
    have hslash : (stubText f.1 f.2).toList ++ t =
        '/' :: ("/go:noescape\n".toList ++ ((f.2.declarationAs f.1).toList ++ t)) := by
      rw [stubText, String.toList_append]
      simp
    rw [hslash]
    exact beginsNone_cons (by decide) (by decide)
  match fs with
  | [] => exact beginsNone_nil.blank (by decide)
  | [f] =>
    rw [stubTexts_singleton]
    exact hstub f _
  | f :: g :: fs =>
    rw [stubTexts_cons]
    exact hstub f _

/-- The declarations of a file are read one after another. -/
lemma readAll_stubTexts (hfs : ∀ f ∈ fs, IsSymbolText f.1 ∧ f.2.IsListed) :
    RawDeclaration.readAll true (stubTexts fs) = fs.filterMap readsAs := by
  have hnil : RawDeclaration.readAll true [] = [] := by rw [RawDeclaration.readAll]
  induction fs with
  | nil =>
    have hempty := @readAll_of_beginsNone [] [] List.not_mem_nil
      (beginsNone_nil.blank (by decide))
    rw [hnil] at hempty
    exact hempty
  | cons f fs ih =>
    obtain ⟨⟨hsymbol, hf⟩, hfs⟩ := List.forall_mem_cons.mp hfs
    have hread : (f :: fs).filterMap readsAs = (readsAs f).toList ++ fs.filterMap readsAs := by
      rw [List.filterMap_cons]
      cases readsAs f <;> rfl
    rw [hread]
    cases fs with
    | nil =>
      rw [stubTexts_singleton, readAll_stubText hsymbol hf, hnil]
      rfl
    | cons g fs =>
      have hblank := @readAll_of_beginsNone [] _ List.not_mem_nil
        ((beginsNone_stubTexts (g :: fs)).blank (by decide))
      rw [List.nil_append] at hblank
      rw [stubTexts_cons, readAll_stubText hsymbol hf, hblank, ih hfs]

/-- The line is empty, or it begins with another letter than a declaration. -/
def IsOther (line : String) : Prop :=
  '\n' ∉ line.toList ∧ ∀ c ∈ line.toList.head?, Text.isBlank c = false ∧ c ≠ 'f'

instance (line : String) : Decidable (IsOther line) := inferInstanceAs (Decidable (_ ∧ _))

/-- Lines that are joined stand one after another, each with a line break behind it. -/
lemma toList_joinLines {lines : List String} (hne : lines ≠ []) :
    (joinLines lines).toList = lines.flatMap fun line => line.toList ++ ['\n'] := by
  induction lines with
  | nil => exact absurd rfl hne
  | cons line lines ih =>
    cases lines with
    | nil =>
      rw [joinLines, String.intercalate_singleton, String.toList_append, List.flatMap_singleton]
      rfl
    | cons next lines =>
      have hrest := ih (List.cons_ne_nil _ _)
      rw [joinLines] at hrest ⊢
      rw [List.flatMap_cons, ← hrest, String.intercalate_cons_cons]
      simp

/-- Lines without declarations are passed over. -/
lemma readAll_lines {lines : List String} (h : ∀ line ∈ lines, IsOther line) {t : List Char}
    (ht : BeginsNone t) :
    BeginsNone ((lines.flatMap fun line => line.toList ++ ['\n']) ++ t) ∧
      RawDeclaration.readAll true ((lines.flatMap fun line => line.toList ++ ['\n']) ++ t) =
        RawDeclaration.readAll true t := by
  induction lines with
  | nil => exact ⟨ht, rfl⟩
  | cons line lines ih =>
    obtain ⟨⟨hbreak, hhead⟩, hlines⟩ := List.forall_mem_cons.mp h
    obtain ⟨hbegins, hread⟩ := ih hlines
    have hsplit : ((line :: lines).flatMap fun line => line.toList ++ ['\n']) ++ t =
        line.toList ++ '\n' :: ((lines.flatMap fun line => line.toList ++ ['\n']) ++ t) := by
      simp
    have hfirst : BeginsNone (line.toList ++
        '\n' :: ((lines.flatMap fun line => line.toList ++ ['\n']) ++ t)) := by
      cases hline : line.toList with
      | nil => exact hbegins.blank (by decide)
      | cons c rest =>
        obtain ⟨hblank, hne⟩ := hhead c (by rw [hline]; rfl)
        exact beginsNone_cons hblank hne
    rw [hsplit, readAll_of_beginsNone hbreak hfirst, hread]
    exact ⟨hfirst, rfl⟩

/-- Of a file the declarations are read. -/
lemma readAll_goDeclarations {package : String} (hpackage : '\n' ∉ package.toList)
    (hfs : ∀ f ∈ fs, IsSymbolText f.1 ∧ f.2.IsListed) :
    RawDeclaration.readAll true (goDeclarations package fs).toList = fs.filterMap readsAs := by
  have hmark : ∀ line ∈ generatedMark, IsOther line := by decide
  have hclause : IsOther ("package " ++ package) := by
    have hrow : ("package " ++ package).toList = 'p' :: ("ackage ".toList ++ package.toList) := by
      rw [String.toList_append]
      rfl
    rw [IsOther, hrow]
    constructor
    · rw [List.mem_cons, List.mem_append, not_or, not_or]
      exact ⟨by decide, by decide, hpackage⟩
    · rintro c ⟨⟩
      decide
  have himport : ∀ imports ∈ [["import \"unsafe\"", ""], []], ∀ line ∈ imports, IsOther line := by
    decide
  have hlines : ∀ imports ∈ [["import \"unsafe\"", ""], []], ∀ line ∈
      generatedMark ++ ["package " ++ package, ""] ++ imports, IsOther line := by
    intro imports himports line hline
    rw [List.mem_append, List.mem_append] at hline
    rcases hline with (hline | hline) | hline
    · exact hmark line hline
    · rcases List.mem_cons.mp hline with rfl | hline
      · exact hclause
      · rw [List.mem_singleton.mp hline]
        decide
    · exact himport imports himports line hline
  have hfile : ∀ imports ∈ [["import \"unsafe\"", ""], []], RawDeclaration.readAll true
      ((joinLines (generatedMark ++ ["package " ++ package, ""] ++ imports)).toList ++
        stubTexts fs) = fs.filterMap readsAs := by
    intro imports himports
    rw [toList_joinLines (by simp), (readAll_lines (hlines imports himports)
      (beginsNone_stubTexts fs)).2, readAll_stubTexts hfs]
  rw [goDeclarations, String.append_assoc, String.toList_append]
  split
  · exact hfile _ (by simp)
  · exact hfile _ (by simp)

/-- A signature with a new name comes behind the others. -/
lemma insertInto_of_notMem {s : Signature} {ss : List Signature} (h : s.name ∉ ss.map (·.name)) :
    Prototypes.insertInto s ss = ss ++ [s] := by
  induction ss with
  | nil => rfl
  | cons t ss ih =>
    rw [List.map_cons, List.mem_cons, not_or] at h
    rw [Prototypes.insertInto, if_neg (by simpa using Ne.symm h.1), ih h.2, List.cons_append]

/-- The signatures that are read back from a file of declarations: those under names. -/
def declaredSignatures (fs : List (String × Signature)) : List Signature :=
  (fs.filter fun f => IsName f.1).map fun f => declaredSignature f.1 f.2

/-- The signatures that are read are put behind those that there are, if their names are new. -/
lemma foldlM_insert (hfs : ∀ f ∈ fs, f.2.IsListed) (hnodup : (fs.map (·.1)).Nodup)
    {ss : List Signature} (hss : ∀ f ∈ fs, f.1 ∉ ss.map (·.name)) :
    (fs.filterMap readsAs).foldlM (fun (p : Prototypes) d => (d.1.signature d.2).map p.insert)
        { signatures := ss } =
      (.ok { signatures := ss ++ declaredSignatures fs } : Except Fault Prototypes) := by
  induction fs generalizing ss with
  | nil => simp [declaredSignatures, pure, Except.pure]
  | cons f fs ih =>
    obtain ⟨hf, hrest⟩ := List.forall_mem_cons.mp hfs
    obtain ⟨hnew, hothers⟩ := List.forall_mem_cons.mp hss
    rw [List.map_cons, List.nodup_cons] at hnodup
    by_cases hname : IsName f.1
    · have hnext : ∀ g ∈ fs, g.1 ∉ (ss ++ [declaredSignature f.1 f.2]).map (·.name) := by
        intro g hg hmem
        rw [List.map_append, List.mem_append] at hmem
        rcases hmem with hmem | hmem
        · exact hothers g hg hmem
        · have heq : g.1 = f.1 := by simpa [declaredSignature] using hmem
          exact hnodup.1 (List.mem_map.mpr ⟨g, hg, heq⟩)
      have hread : readsAs f = some (rawDeclaration f.1 f.2, f.2.declarationAs f.1) := if_pos hname
      have hinsert : ({ signatures := ss } : Prototypes).insert (declaredSignature f.1 f.2) =
          { signatures := ss ++ [declaredSignature f.1 f.2] } :=
        congrArg Prototypes.mk (insertInto_of_notMem hnew)
      have hsignatures : declaredSignatures (f :: fs) =
          declaredSignature f.1 f.2 :: declaredSignatures fs := by
        simp [declaredSignatures, hname]
      rw [List.filterMap_cons_some hread, foldlM_cons_eq_ok]
      refine ⟨{ signatures := ss ++ [declaredSignature f.1 f.2] }, ?_, ?_⟩
      · rw [signature_rawDeclaration hf, ← hinsert]
        rfl
      · rw [ih hrest hnodup.2 hnext, hsignatures, List.append_assoc, List.singleton_append]
    · have hread : readsAs f = none := if_neg hname
      have hsignatures : declaredSignatures (f :: fs) = declaredSignatures fs := by
        simp [declaredSignatures, hname]
      rw [List.filterMap_cons_none hread, ih hrest hnodup.2 hothers, hsignatures]

/-- The declarations that are written for signatures are read back, as far as they are under
names. -/
lemma read_goDeclarations {package : String} (hpackage : '\n' ∉ package.toList)
    (hfs : ∀ f ∈ fs, IsSymbolText f.1 ∧ f.2.IsListed) (hnodup : (fs.map (·.1)).Nodup) :
    Prototypes.read (goDeclarations package fs) = .ok { signatures := declaredSignatures fs } := by
  rw [Prototypes.read, Text.chars_eq_toList, readAll_goDeclarations hpackage hfs]
  exact foldlM_insert (fun f hf => (hfs f hf).2) hnodup fun f _ => List.not_mem_nil

end Files

end AsmBridge
