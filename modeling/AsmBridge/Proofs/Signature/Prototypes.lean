import AsmBridge.Proofs.Signature.Declarations

/-!
# Prototypes that are read

The prototypes of a Go source are under names, and a result has a name of its own, which is a word
that may stand in a list (`read_isDeclared`).
-/

namespace AsmBridge

/-- The result, if there is one, has a name that may stand in a list and is read back as its own. -/
def Signature.HasNamedResult (s : Signature) : Prop :=
  ∀ r ∈ s.result, IsListWord r.name ∧ Text.startsWith "_" r.name = false

/-- The signature is such as a declaration gives: it is under a name, and its result has a name of
its own. -/
structure Signature.IsDeclared (s : Signature) : Prop where
  name : IsName s.name
  result : s.HasNamedResult

/-- The word of a part of a list may stand in a list. -/
lemma isListWord_of_mem_words {s part w : List Char} (hs : ')' ∉ s)
    (hpart : part ∈ parameterParts s) (hw : w ∈ Text.words part) :
    IsListWord (String.ofList w) := by
  obtain ⟨hpart, -⟩ := List.mem_filter.mp hpart
  obtain ⟨q, hq, rfl⟩ := List.mem_map.mp hpart
  obtain ⟨hcomma, hmem⟩ := Text.mem_splitOn hq
  rw [IsListWord, String.toList_ofList]
  refine ⟨Text.wordsFrom_ne_nil _ _ w hw, fun c hc => ⟨?_, ?_, ?_⟩⟩
  · exact Text.isBlank_of_mem_wordsFrom (by simp) hw hc
  all_goals
    have hq' : c ∈ q := Text.mem_of_mem_trim
      ((Text.mem_of_mem_wordsFrom hw hc).resolve_right List.not_mem_nil)
    rintro rfl
  · exact hcomma hq'
  · exact hs (hmem _ hq')

/-- Named parameters have words as names. -/
lemma name_of_mem_typedParameters {Q : String → Prop} {pending : List String}
    {parts : List (List Char)} {ps : List (String × String)}
    (h : typedParameters pending parts = .ok ps) (hpending : ∀ n ∈ pending, Q n)
    (hparts : ∀ part ∈ parts, ∀ w ∈ Text.words part, Q (String.ofList w)) : ∀ p ∈ ps, Q p.1 := by
  induction parts generalizing pending ps with
  | nil =>
    rw [typedParameters] at h
    split at h
    · rw [← Except.ok.inj h]
      exact List.forall_mem_nil _
    · cases h
  | cons part parts ih =>
    obtain ⟨hpart, hrest⟩ := List.forall_mem_cons.mp hparts
    have hwords : ∀ n ∈ (Text.words part).map String.ofList, Q n := by
      intro n hn
      obtain ⟨w, hw, rfl⟩ := List.mem_map.mp hn
      exact hpart w hw
    rw [typedParameters] at h
    split at h
    · exact ih h hpending hrest
    · rename_i name heq
      rw [heq] at hwords
      exact ih h (List.forall_mem_cons.mpr ⟨hwords name List.mem_cons_self, hpending⟩) hrest
    · rename_i name kind _ heq
      rw [heq] at hwords
      obtain ⟨more, hmore, rfl⟩ := map_eq_ok.mp h
      intro p hp
      rcases List.mem_append.mp hp with hp | hp
      · obtain ⟨n, hn, rfl⟩ := List.mem_map.mp hp
        rw [List.mem_reverse] at hn
        exact List.forall_mem_cons.mpr ⟨hwords name List.mem_cons_self, hpending⟩ n hn
      · exact ih hmore (List.forall_mem_nil _) hrest p hp

/-- A parameter has a word as name, or one that tells its position. -/
lemma name_of_mem_readParameters {s : List Char} {ps : List (String × String)} (hs : ')' ∉ s)
    (h : readParameters s = .ok ps) {p : String × String} (hp : p ∈ ps) :
    IsListWord p.1 ∨ Text.startsWith "_" p.1 = true := by
  rw [readParameters] at h
  split at h
  · exact .inl (name_of_mem_typedParameters h (List.forall_mem_nil _)
      (fun part hpart w hw => isListWord_of_mem_words hs hpart hw) p hp)
  · rw [← Except.ok.inj h] at hp
    obtain ⟨q, -, rfl⟩ := List.mem_map.mp hp
    right
    rw [Text.startsWith_eq, String.toList_append]
    rfl

namespace RawDeclaration

/-- The declaration is under a name, and the list of its results ends at the first parenthesis. -/
def IsRead (d : RawDeclaration) : Prop := IsName d.name ∧ ∀ inner ∈ d.resultList, ')' ∉ inner

/-- A signature that is read is such as a declaration gives. -/
lemma IsRead.signature {d : RawDeclaration} (hd : d.IsRead) {source : String} {s : Signature}
    (h : d.signature source = .ok s) : s.IsDeclared := by
  obtain ⟨params, -, h⟩ := bind_eq_ok.mp h
  obtain ⟨results, hresults, h⟩ := bind_eq_ok.mp h
  have hresults := mapError_eq_ok.mp hresults
  have hret : IsListWord "ret" ∧ Text.startsWith "_" "ret" = false := by
    refine ⟨⟨by decide, by decide⟩, by decide⟩
  have hnames : ∀ r ∈ results, IsListWord r.1 ∨ Text.startsWith "_" r.1 = true := by
    intro r hr
    unfold RawDeclaration.results at hresults
    split at hresults
    · rename_i inner hinner
      exact name_of_mem_readParameters (hd.2 inner hinner) hresults hr
    · rw [← Except.ok.inj hresults, List.mem_singleton] at hr
      rw [hr]
      exact .inl hret.1
    · rw [← Except.ok.inj hresults] at hr
      cases hr
  split at h
  · rw [← pure_eq_ok.mp h]
    exact ⟨hd.1, fun r hr => nomatch hr⟩
  · rename_i r _
    rw [← pure_eq_ok.mp h]
    refine ⟨hd.1, ?_⟩
    rintro _ ⟨⟩
    dsimp only
    split_ifs with hunder
    · exact hret
    · exact ⟨(hnames r List.mem_cons_self).resolve_right hunder, by simpa using hunder⟩
  · cases h

/-- The list of a result ends at its first parenthesis. -/
lemma notMem_of_result? {s inner : List Char} (h : (result? s).2.1 = some inner) : ')' ∉ inner := by
  have hcut : ∀ t : List Char, ')' ∉ (Text.cutAt ')' t).1 := by
    intro t
    unfold Text.cutAt
    split
    · rename_i hdrop
      intro hmem
      simpa using List.dropWhile_eq_nil_iff.mp hdrop ')' hmem
    · intro hmem
      simpa using List.mem_takeWhile_imp hmem
  unfold result? at h
  dsimp only at h
  split at h
  · rename_i rest
    split at h
    · rename_i inner' tail heq
      have hinner := hcut rest
      rw [heq] at hinner
      rwa [← Option.some.inj h]
    · split at h <;> cases h
  · split at h <;> cases h

/-- What is read at the front of a text. -/
lemma isRead_of_read? {s tail : List Char} {d : RawDeclaration} (h : read? s = some (d, tail)) :
    d.IsRead := by
  unfold read? at h
  obtain ⟨s₁, -, h⟩ := Option.bind_eq_some_iff.mp h
  obtain ⟨s₂, -, h⟩ := Option.bind_eq_some_iff.mp h
  dsimp only at h
  split at h
  · cases h
  · rename_i hname
    split at h
    · obtain ⟨rest, -, h⟩ := Option.bind_eq_some_iff.mp h
      obtain ⟨rfl, -⟩ := Prod.mk.inj (Option.some.inj h)
      constructor
      · rw [IsName, String.toList_ofList, Text.someAll]
        simp only [Bool.and_eq_true, List.all_eq_true]
        exact ⟨by simpa using hname, fun c hc => List.mem_takeWhile_imp hc⟩
      · exact fun inner hinner => notMem_of_result? hinner
    · cases h

/-- What is read from a text. -/
lemma isRead_of_mem_readAll {lineStart : Bool} {s : List Char} {p : RawDeclaration × String}
    (h : p ∈ readAll lineStart s) : p.1.IsRead := by
  induction lineStart, s using readAll.induct with
  | case1 _ =>
    rw [readAll] at h
    cases h
  | case2 lineStart c rest d tail heq _ ih =>
    rw [readAll] at h
    simp only [dite_eq_ite] at heq
    rw [heq] at h
    rcases List.mem_cons.mp h with rfl | h
    · split_ifs at heq
      exact isRead_of_read? heq
    · exact ih h
  | case3 lineStart c rest heq ih =>
    rw [readAll] at h
    simp only [dite_eq_ite] at heq
    rw [heq] at h
    exact ih h

end RawDeclaration

namespace Prototypes

/-- A signature of a list with one more is that one or was in the list before. -/
lemma mem_of_mem_insertInto {s t : Signature} {ss : List Signature} (h : t ∈ insertInto s ss) :
    t = s ∨ t ∈ ss := by
  induction ss with
  | nil => exact .inl (List.mem_singleton.mp h)
  | cons u ss ih =>
    rw [insertInto] at h
    split at h
    · exact (List.mem_cons.mp h).imp_right (List.mem_cons_of_mem u)
    · rcases List.mem_cons.mp h with rfl | h
      · exact .inr List.mem_cons_self
      · exact (ih h).imp_right (List.mem_cons_of_mem u)

/-- The signatures of a Go source are such as declarations give. -/
lemma read_isDeclared {source : String} {p : Prototypes} (h : read source = .ok p) :
    ∀ s ∈ p.signatures, s.IsDeclared := by
  refine foldlM_induction_mem (fun p : Prototypes => ∀ s ∈ p.signatures, s.IsDeclared)
    (fun p d hd p' hstep hp => ?_) h (fun s hs => nomatch hs)
  obtain ⟨s, hs, rfl⟩ := map_eq_ok.mp hstep
  intro t ht
  rcases mem_of_mem_insertInto ht with rfl | ht
  · exact (RawDeclaration.isRead_of_mem_readAll hd).signature hs
  · exact hp t ht

end Prototypes

end AsmBridge
