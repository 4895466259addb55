import AsmBridge.Proofs.Outcome
import AsmBridge.Proofs.Signature.Groups
import AsmBridge.Stubs
import Mathlib.Data.List.TakeWhile

/-!
# A declaration that is read back

The line that declares a signature under a symbol is read back, if the symbol is a name, as a
signature with the same arguments and the same result (`read?_declarationAs`,
`signature_rawDeclaration`). Arguments and results are read back if they consist of words that may
stand in a list; a result must moreover not look like one without a name.
-/

namespace AsmBridge

/-- The text is a name: a row of word characters. -/
def IsName (s : String) : Prop := Text.someAll Text.isWord s.toList = true

instance (s : String) : Decidable (IsName s) := inferInstanceAs (Decidable (_ = true))

/-- The text may stand as a word in a list in parentheses. -/
def IsListWord (s : String) : Prop :=
  s.toList ≠ [] ∧ ∀ c ∈ s.toList, Text.isBlank c = false ∧ c ≠ ',' ∧ c ≠ ')'

/-- The name and the type of an argument may stand in a list. -/
def Argument.IsListed (a : Argument) : Prop := IsListWord a.name ∧ IsListWord a.kind

/-- The arguments and the result may stand in lists, and the result has a name of its own there. -/
structure Signature.IsListed (s : Signature) : Prop where
  args : ∀ a ∈ s.args, a.IsListed
  result : ∀ r ∈ s.result, r.IsListed ∧ Text.startsWith "_" r.name = false

/-! ## Parameters -/

section Parameters

/-- An argument as it stands in a list. -/
def Argument.text (a : Argument) : List Char := a.name.toList ++ ' ' :: a.kind.toList

variable {a : Argument} {args : List Argument}

/-- No list, no part of it and no line ends in an argument. -/
lemma plain_of_mem_text (h : a.IsListed) {c : Char} (hc : c ∈ a.text) :
    c ≠ ',' ∧ c ≠ ')' ∧ c ≠ '\n' := by
  have hword : Text.isBlank c = false ∧ c ≠ ',' ∧ c ≠ ')' → c ≠ ',' ∧ c ≠ ')' ∧ c ≠ '\n' := by
    rintro ⟨hblank, hcomma, hparen⟩
    refine ⟨hcomma, hparen, ?_⟩
    rintro rfl
    revert hblank
    decide
  obtain ⟨⟨-, hname⟩, -, hkind⟩ := h
  rw [Argument.text, List.mem_append, List.mem_cons] at hc
  rcases hc with hc | rfl | hc
  · exact hword (hname c hc)
  · decide
  · exact hword (hkind c hc)

/-- The words of an argument are its name and its type. -/
lemma words_text (h : a.IsListed) : Text.words a.text = [a.name.toList, a.kind.toList] := by
  obtain ⟨⟨hname, hnames⟩, hkind, hkinds⟩ := h
  rw [Argument.text, Text.words_append hname (fun c hc => (hnames c hc).1) (by decide),
    Text.words_eq_singleton hkind fun c hc => (hkinds c hc).1]

/-- The list of arguments as it is written. -/
def argumentRow (args : List Argument) : List Char := [',', ' '].intercalate (args.map Argument.text)

/-- No list and no line ends in a list of arguments. -/
lemma plain_of_mem_argumentRow (h : ∀ a ∈ args, a.IsListed) {c : Char}
    (hc : c ∈ argumentRow args) : c ≠ ')' ∧ c ≠ '\n' := by
  rcases Text.mem_of_mem_intercalate hc with hc | ⟨text, htext, hc⟩
  · have hsep : ∀ c ∈ [',', ' '], c ≠ ')' ∧ c ≠ '\n' := by decide
    exact hsep c hc
  · obtain ⟨a, ha, rfl⟩ := List.mem_map.mp htext
    exact (plain_of_mem_text (h a ha) hc).2

/-- The parts of a list are the names and the types of its arguments. -/
lemma parameterRows_argumentRow (h : ∀ a ∈ args, a.IsListed) :
    parameterRows (argumentRow args) = args.map fun a => [a.name.toList, a.kind.toList] := by
  cases args with
  | nil => rfl
  | cons first rest =>
    have hcomma : ∀ p ∈ first.text :: rest.map Argument.text, ',' ∉ p := by
      intro p hp
      rw [← List.map_cons] at hp
      obtain ⟨a, ha, rfl⟩ := List.mem_map.mp hp
      exact fun hmem => (plain_of_mem_text (h a ha) hmem).1 rfl
    have hrow := Text.splitOn_row [] List.not_mem_nil (by decide) hcomma
    have hrest : ∀ a ∈ rest, Text.words (' ' :: a.text) = [a.name.toList, a.kind.toList] :=
      fun a ha => (Text.words_cons_of_isBlank (by decide)).trans
        (words_text (h a (List.mem_cons_of_mem _ ha)))
    have hwords : (first.text :: (rest.map Argument.text).map (' ' :: ·)).map Text.words =
        (first :: rest).map fun a => [a.name.toList, a.kind.toList] := by
      rw [List.map_cons, List.map_cons, words_text (h first List.mem_cons_self), List.map_map,
        List.map_map]
      exact congrArg _ (List.map_congr_left hrest)
    rw [List.nil_append, List.nil_append] at hrow
    rw [parameterRows, argumentRow, List.map_cons, hrow, hwords, List.filter_eq_self]
    intro ws hws
    obtain ⟨a, -, rfl⟩ := List.mem_map.mp hws
    exact decide_eq_true (List.cons_ne_nil _ _)

/-- An argument is a group by itself. -/
def Argument.group (a : Argument) : ParameterGroup :=
  ⟨[], a.name.toList, [a.kind.toList], List.cons_ne_nil _ _⟩

/-- A list is read back to its arguments. -/
lemma readParameters_argumentRow (h : ∀ a ∈ args, a.IsListed) :
    readParameters (argumentRow args) = .ok (args.map fun a => (a.name, a.kind)) := by
  have hparameters : ∀ a : Argument, a.group.parameters = [(a.name, a.kind)] := by
    intro a
    simp [Argument.group, ParameterGroup.parameters, ParameterGroup.type,
      String.intercalate_singleton]
  have hrows : parameterRows (argumentRow args) =
      (args.map Argument.group).flatMap ParameterGroup.rows ++ [].map ([·]) := by
    rw [parameterRows_argumentRow h, List.map_nil, List.append_nil, List.flatMap_map]
    exact List.map_eq_flatMap
  by_cases hargs : args = []
  · subst hargs
    rfl
  · rw [readParameters_of_rows hrows (by simpa using hargs), groupOutcome, if_pos rfl,
      List.flatMap_map]
    simp only [hparameters]
    rw [List.map_eq_flatMap]

end Parameters

/-! ## Declarations -/

section Declarations

variable {symbol : String} {s : Signature}

/-- The result as it is written behind the parentheses of the parameters. -/
def resultText (s : Signature) : List Char :=
  match s.result with
  | some r => ' ' :: '(' :: (r.text ++ [')'])
  | none => []

/-- The line that declares a signature under a symbol. -/
lemma toList_declarationAs (s : Signature) (symbol : String) :
    (s.declarationAs symbol).toList =
      "func ".toList ++ (symbol.toList ++ '(' :: (argumentRow s.args ++ ')' :: resultText s)) := by
  have hargument : ∀ a : Argument, (a.name ++ " " ++ a.kind).toList = a.text := by
    intro a
    simp [Argument.text]
  have hrow : (Text.commaList (s.args.map fun a => a.name ++ " " ++ a.kind)).toList =
      argumentRow s.args := by
    rw [Text.commaList, String.toList_intercalate, List.map_map]
    exact congrArg _ (List.map_congr_left fun a _ => hargument a)
  have hresult : ((s.result.map fun r => " (" ++ r.name ++ " " ++ r.kind ++ ")").getD "").toList =
      resultText s := by
    unfold resultText
    cases s.result with
    | none => rfl
    | some r => simp [Argument.text]
  simp only [Signature.declarationAs, Signature.tailText, String.toList_append, hrow, hresult]
  simp

/-- What is read from the line that declares a signature, if its symbol is a name. -/
def rawDeclaration (symbol : String) (s : Signature) : RawDeclaration :=
  { name := symbol
    params := argumentRow s.args
    result := s.result.map fun r => '(' :: (r.text ++ [')'])
    resultList := s.result.map Argument.text }

/-- The signature that is read back under a name. -/
def declaredSignature (symbol : String) (s : Signature) : Signature :=
  { name := symbol, args := s.args, result := s.result }

/-- The declaration of a signature is read back. -/
lemma signature_rawDeclaration (h : s.IsListed) (symbol source : String) :
    (rawDeclaration symbol s).signature source = .ok (declaredSignature symbol s) := by
  have hargs : ((s.args.map fun a => (a.name, a.kind)).map fun p => Argument.mk p.1 p.2) =
      s.args := by
    rw [List.map_map]
    exact List.map_id _
  have hresults : (rawDeclaration symbol s).results =
      .ok (s.result.toList.map fun a => (a.name, a.kind)) := by
    unfold RawDeclaration.results rawDeclaration
    cases hr : s.result with
    | none => rfl
    | some r =>
      have hlisted : ∀ a ∈ [r], a.IsListed := by
        intro a ha
        rw [List.mem_singleton.mp ha]
        exact (h.result r hr).1
      have hrow := readParameters_argumentRow hlisted
      rw [argumentRow, List.map_singleton, List.intercalate_singleton] at hrow
      exact hrow
  unfold RawDeclaration.signature
  refine bind_eq_ok.mpr ⟨_, mapError_eq_ok.mpr (readParameters_argumentRow h.args), ?_⟩
  refine bind_eq_ok.mpr ⟨_, mapError_eq_ok.mpr hresults, ?_⟩
  simp only [hargs]
  unfold declaredSignature
  cases hr : s.result with
  | none => rfl
  | some r =>
    simp only [Option.toList_some, List.map_cons, List.map_nil, (h.result r hr).2]
    rfl

/-- The characters of a symbol: those of words, and those that only symbols have. -/
def IsSymbolText (symbol : String) : Prop := ∀ c ∈ symbol.toList, Text.isSymbolRest c = true

/-- A part of a symbol is no blank and no parenthesis. -/
lemma plain_of_isSymbolRest {c : Char} (h : Text.isSymbolRest c = true) :
    Text.isBlank c = false ∧ c ≠ '(' := by
  simp only [Text.isSymbolRest, Bool.or_eq_true, beq_iff_eq] at h
  rcases h with ((h | rfl) | rfl) | rfl
  · refine ⟨Text.isBlank_eq_false_of_isWord h, ?_⟩
    rintro rfl
    revert h
    decide
  all_goals decide

/-- The result that is read behind the parameters of a declaration. -/
lemma result?_resultText (h : s.IsListed) (symbol : String) (rest : List Char) :
    RawDeclaration.result? ((resultText s ++ '\n' :: rest).dropWhile fun c => c == ' ' || c == '\t') =
      ((rawDeclaration symbol s).result, (rawDeclaration symbol s).resultList, '\n' :: rest) := by
  unfold resultText rawDeclaration
  cases hr : s.result with
  | none => rfl
  | some r =>
    have hparen : ')' ∉ r.text := fun hmem => (plain_of_mem_text (h.result r hr).1 hmem).2.1 rfl
    have hcut := Text.cutAt_append (t := '\n' :: rest) hparen
    have hrow : ((' ' :: '(' :: (r.text ++ [')'])) ++ '\n' :: rest).dropWhile
        (fun c => c == ' ' || c == '\t') = '(' :: (r.text ++ ')' :: '\n' :: rest) := by
      simp
    simp only [hrow, RawDeclaration.result?, hcut]
    rfl

/-- The word at the front of a text that begins with a name. -/
lemma takeWhile_isWord (hname : IsName symbol) (t : List Char) :
    (symbol.toList ++ '(' :: t).takeWhile Text.isWord = symbol.toList ∧
      (symbol.toList ++ '(' :: t).dropWhile Text.isWord = '(' :: t := by
  simp only [IsName, Text.someAll, Bool.and_eq_true, List.all_eq_true] at hname
  rw [List.takeWhile_append_of_pos hname.2, List.dropWhile_append_of_pos hname.2,
    List.takeWhile_cons_of_neg (by decide), List.dropWhile_cons_of_neg (by decide),
    List.append_nil]
  exact ⟨rfl, rfl⟩

/-- A symbol that is no name has no word at its front, or goes on behind it. -/
lemma dropWhile_isWord (hsymbol : IsSymbolText symbol) (hname : ¬IsName symbol) (t : List Char) :
    (symbol.toList ++ '(' :: t).takeWhile Text.isWord = [] ∨
      ∃ c rest, (symbol.toList ++ '(' :: t).dropWhile Text.isWord = c :: rest ∧
        Text.isBlank c = false ∧ c ≠ '(' := by
  by_cases hempty : symbol.toList = []
  · left
    rw [hempty, List.nil_append, List.takeWhile_cons_of_neg (by decide)]
  · right
    have hdrop : symbol.toList.dropWhile Text.isWord ≠ [] := by
      intro hnil
      refine hname ?_
      simp only [IsName, Text.someAll, Bool.and_eq_true, List.all_eq_true]
      exact ⟨by simpa using hempty, List.dropWhile_eq_nil_iff.mp hnil⟩
    obtain ⟨c, rest, hc⟩ := List.exists_cons_of_ne_nil hdrop
    have hmem : c ∈ symbol.toList := by
      refine (List.dropWhile_sublist Text.isWord).subset ?_
      rw [hc]
      exact List.mem_cons_self
    refine ⟨c, rest ++ '(' :: t, ?_, plain_of_isSymbolRest (hsymbol c hmem)⟩
    rw [List.dropWhile_append, hc, List.isEmpty_cons, if_neg (by simp), List.cons_append]

/-- Behind `func` a declaration goes on with its symbol. -/
lemma afterBlanks?_symbol (hsymbol : IsSymbolText symbol) (t : List Char) :
    RawDeclaration.afterBlanks? (' ' :: (symbol.toList ++ '(' :: t)) =
      some (symbol.toList ++ '(' :: t) := by
  have htrim : Text.trimLeft (symbol.toList ++ '(' :: t) = symbol.toList ++ '(' :: t := by
    refine Text.trimLeft_eq_self ?_
    intro c hc
    cases hs : symbol.toList with
    | nil =>
      rw [hs] at hc
      obtain rfl := Option.some.inj hc
      decide
    | cons d ds =>
      rw [hs] at hc
      obtain rfl := Option.some.inj hc
      exact (plain_of_isSymbolRest (hsymbol d (hs ▸ List.mem_cons_self))).1
  exact congrArg some htrim

/-- A declaration is read from its line if its symbol is a name, and nothing is otherwise. -/
lemma read?_declarationAs (hsymbol : IsSymbolText symbol) (h : s.IsListed) (rest : List Char) :
    RawDeclaration.read? ((s.declarationAs symbol).toList ++ '\n' :: rest) =
      if IsName symbol then some (rawDeclaration symbol s, '\n' :: rest) else none := by
  have hfunc : ∀ t : List Char, Text.after? "func" (Text.trimLeft ("func ".toList ++ t)) =
      some (' ' :: t) := fun t => rfl
  have hrow : (s.declarationAs symbol).toList ++ '\n' :: rest = "func ".toList ++ (symbol.toList ++
      '(' :: (argumentRow s.args ++ ')' :: (resultText s ++ '\n' :: rest))) := by
    rw [toList_declarationAs]
    simp
  rw [hrow, RawDeclaration.read?, hfunc, Option.bind_eq_bind, Option.bind_some,
    afterBlanks?_symbol hsymbol, Option.bind_some]
  dsimp only
  split_ifs with hempty hname hname
  · rw [(takeWhile_isWord hname _).1, List.isEmpty_iff] at hempty
    simp [IsName, Text.someAll, hempty] at hname
  · rfl
  · obtain ⟨htake, hdrop⟩ := takeWhile_isWord hname
      (argumentRow s.args ++ ')' :: (resultText s ++ '\n' :: rest))
    have htrim : ∀ t : List Char, Text.trimLeft ('(' :: t) = '(' :: t := fun t => rfl
    have hparen : ')' ∉ argumentRow s.args := fun hmem =>
      (plain_of_mem_argumentRow h.args hmem).1 rfl
    rw [htake, hdrop, htrim]
    simp only [Text.cutAt_append hparen, Option.bind_some,
      result?_resultText h symbol rest, String.ofList_toList]
    rfl
  · rcases dropWhile_isWord hsymbol hname
      (argumentRow s.args ++ ')' :: (resultText s ++ '\n' :: rest)) with hnil | ⟨c, t, hc, hblank, hne⟩
    · rw [hnil] at hempty
      exact absurd rfl hempty
    · rw [hc, Text.trimLeft_eq_self (by simpa using hblank)]
      split
      · rename_i heq
        exact absurd (List.cons.inj heq).1 hne
      · rfl

end Declarations

end AsmBridge
