import AsmBridge.CommandLine.Token
import AsmBridge.Proofs.Text.Cut
import Mathlib.Data.List.Nodup

/-!
# The spelling of flags

How flags are written in an argument of the command line: by a long name, which may be cut short
where no other name begins alike, with its value behind an equals sign or in the next argument; or
by letters behind one dash, the last of which may have its value joined to it. An argument that is
no flag is a value if it does not look like one. The reader of arguments takes an argument for flags
exactly if it spells them, and for a value exactly if it is one (`read?_eq_flags_iff`,
`read?_eq_value_iff`).
-/

namespace AsmBridge

namespace Flag

/-! ## Names -/

/-- The name stands for the flag: it is the long name, or the beginning of this one alone. -/
def IsNamed (f : Flag) (name : List Char) : Prop :=
  name = f.longName.toList ∨
    (∀ g : Flag, name ≠ g.longName.toList) ∧ ∀ g : Flag, name <+: g.longName.toList ↔ g = f

lemma mem_all (f : Flag) : f ∈ all := by cases f <;> decide

lemma longName_injective {f g : Flag} (h : f.longName = g.longName) : f = g :=
  List.inj_on_of_nodup_map (f := longName) (by decide) (mem_all f) (mem_all g) h

lemma ofLetter?_eq_some_iff {c : Char} {f : Flag} : ofLetter? c = some f ↔ f.letter? = some c := by
  constructor
  · intro h
    exact eq_of_beq (List.find?_some (p := fun f : Flag => f.letter? == some c) h)
  · intro h
    cases f <;> simp only [letter?, Option.some.injEq, reduceCtorEq] at h <;> subst h <;> rfl

lemma letter?_injective {c : Char} {f g : Flag} (hf : f.letter? = some c)
    (hg : g.letter? = some c) : f = g :=
  Option.some.inj ((ofLetter?_eq_some_iff.mpr hf).symm.trans (ofLetter?_eq_some_iff.mpr hg))

lemma isLongName_iff {name : List Char} {g : Flag} :
    (g.longName == String.ofList name) = true ↔ name = g.longName.toList := by
  rw [beq_iff_eq]
  exact ⟨fun h => by rw [h, String.toList_ofList], fun h => by rw [h, String.ofList_toList]⟩

lemma beginsLongName_iff {name : List Char} {g : Flag} :
    Text.startsWith (String.ofList name) g.longName = true ↔ name <+: g.longName.toList := by
  rw [Text.startsWith_eq, String.toList_ofList, List.isPrefixOf_iff_prefix]

section Names

variable {name : List Char}

/-- The flag of a long name, or else the flags whose long names begin like it. -/
lemma ofLongName_cases (name : List Char) :
    (∃ g : Flag, name = g.longName.toList ∧ ofLongName (String.ofList name) = [g]) ∨
      (∀ g : Flag, name ≠ g.longName.toList) ∧ (ofLongName (String.ofList name)).Nodup ∧
        ∀ g, g ∈ ofLongName (String.ofList name) ↔ name <+: g.longName.toList := by
  rw [ofLongName]
  cases hfind : all.find? fun g => g.longName == String.ofList name with
  | some g =>
    have hg := List.find?_some (p := fun g : Flag => g.longName == String.ofList name) hfind
    exact .inl ⟨g, isLongName_iff.mp hg, rfl⟩
  | none =>
    have hall : all.Nodup := by decide
    refine .inr ⟨fun g hg => ?_, hall.filter _, fun g => ?_⟩
    · exact List.find?_eq_none.mp hfind g (mem_all g) (isLongName_iff.mpr hg)
    · rw [List.mem_filter, beginsLongName_iff]
      exact and_iff_right (mem_all g)

/-- A name stands for one flag if it is the only one that is found. -/
lemma ofLongName_eq_singleton_iff {f : Flag} :
    ofLongName (String.ofList name) = [f] ↔ f.IsNamed name := by
  rw [IsNamed]
  rcases ofLongName_cases name with ⟨g, rfl, hone⟩ | ⟨hne, hnodup, hmem⟩
  · have hlong : ¬ ∀ h : Flag, g.longName.toList ≠ h.longName.toList := fun h => h g rfl
    rw [hone]
    simp only [hlong, false_and, or_false, List.cons.injEq, and_true]
    exact ⟨fun h => h ▸ rfl, fun h => longName_injective (String.toList_inj.mp h)⟩
  · simp only [hne f, false_or]
    constructor
    · intro hone
      refine ⟨hne, fun g => ?_⟩
      rw [← hmem, hone, List.mem_singleton]
    · rintro ⟨-, hcut⟩
      refine List.perm_singleton.mp ((List.perm_ext_iff_of_nodup hnodup
        (List.nodup_singleton f)).mpr fun g => ?_)
      rw [hmem, hcut, List.mem_singleton]

/-- No flag is found for a name if no long name begins like it. -/
lemma ofLongName_eq_nil_iff :
    ofLongName (String.ofList name) = [] ↔ ∀ f : Flag, ¬ name <+: f.longName.toList := by
  rcases ofLongName_cases name with ⟨g, rfl, hone⟩ | ⟨-, -, hmem⟩
  · rw [hone]
    exact iff_of_false (List.cons_ne_nil _ _) fun h => h g List.prefix_rfl
  · rw [List.eq_nil_iff_forall_not_mem]
    exact forall_congr' fun g => not_congr (hmem g)

end Names

/-- A name begins with two dashes and has no equals sign in it. -/
lemma IsNamed.exists_cons {f : Flag} {name : List Char} (h : f.IsNamed name) :
    (∃ rest, name = '-' :: '-' :: rest) ∧ '=' ∉ name := by
  have hprefix : name <+: f.longName.toList := by
    rcases h with rfl | ⟨-, h⟩
    · exact List.prefix_rfl
    · exact (h f).mpr rfl
  have hdashes : ∀ g : Flag, ∃ body, g.longName.toList = '-' :: '-' :: body := by
    intro g
    cases g <;> exact ⟨_, rfl⟩
  -- What all long names begin with is the beginning of no flag alone.
  have hmany : name ≠ f.longName.toList → ¬ ∀ g : Flag, name <+: g.longName.toList := by
    intro hne hall
    have hcut := (h.resolve_left hne).2
    exact nomatch ((hcut .help).mp (hall _)).trans ((hcut .version).mp (hall _)).symm
  constructor
  · obtain ⟨body, hbody⟩ := hdashes f
    rw [hbody] at hprefix hmany
    rcases List.prefix_cons_iff.mp hprefix with rfl | ⟨rest, rfl, hrest⟩
    · exact absurd (fun g => List.nil_prefix) (hmany (by simp))
    · rcases List.prefix_cons_iff.mp hrest with rfl | ⟨rest, rfl, -⟩
      · refine absurd (fun g => ?_) (hmany (by simp))
        obtain ⟨body', hbody'⟩ := hdashes g
        rw [hbody']
        exact ⟨_, rfl⟩
      · exact ⟨rest, rfl⟩
  · intro hmem
    have hmem := hprefix.subset hmem
    cases f <;> exact absurd hmem (by decide)

end Flag

namespace Token

/-! ## Groups of letters -/

/-- The letters behind a dash are the flags of a group. What follows a letter whose flag takes a
value is the value. -/
inductive Letters : List Char → List Flag → Valued → Prop
  | last {c : Char} {f : Flag} (hletter : f.letter? = some c) (hplain : f.takesValue = false) :
      Letters [c] [f] .none
  | opened {c : Char} {f : Flag} (hletter : f.letter? = some c) (hvalued : f.takesValue = true) :
      Letters [c] [] (.open f)
  | joined {c : Char} {f : Flag} {value : List Char} (hletter : f.letter? = some c)
      (hvalued : f.takesValue = true) (hvalue : value ≠ []) :
      Letters (c :: value) [] (.joined f (String.ofList value))
  | plain {c : Char} {f : Flag} {cs : List Char} {fs : List Flag} {v : Valued}
      (hletter : f.letter? = some c) (hplain : f.takesValue = false) (hrest : Letters cs fs v) :
      Letters (c :: cs) (f :: fs) v

lemma Letters.ne_nil {cs : List Char} {fs : List Flag} {v : Valued} (h : Letters cs fs v) :
    cs ≠ [] := by
  cases h <;> exact List.cons_ne_nil _ _

lemma Letters.exists_letter {c : Char} {cs : List Char} {fs : List Flag} {v : Valued}
    (h : Letters (c :: cs) fs v) : ∃ f : Flag, f.letter? = some c := by
  cases h <;> exact ⟨_, ‹_›⟩

/-- Behind a letter without a value come the letters of the rest of the group. -/
lemma Letters.cons_iff {f : Flag} {c : Char} {cs : List Char} {fs : List Flag} {v : Valued}
    (hf : f.letter? = some c) (hplain : f.takesValue = false) (hcs : cs ≠ []) :
    Letters (c :: cs) fs v ↔ ∃ gs, fs = f :: gs ∧ Letters cs gs v := by
  constructor
  · intro h
    cases h with
    | last _ _ => exact absurd rfl hcs
    | opened _ _ => exact absurd rfl hcs
    | joined hg hvalued _ =>
      obtain rfl := Flag.letter?_injective hf hg
      rw [hplain] at hvalued
      cases hvalued
    | plain hg _ hrest =>
      obtain rfl := Flag.letter?_injective hf hg
      exact ⟨_, rfl, hrest⟩
  · rintro ⟨gs, rfl, hrest⟩
    exact .plain hf hplain hrest

lemma alone_eq_flags_iff {f : Flag} {fs : List Flag} {v : Valued} :
    alone f = .flags fs v ↔ (f.takesValue = true ∧ fs = [] ∧ v = .open f) ∨
      (f.takesValue = false ∧ fs = [f] ∧ v = .none) := by
  rw [alone]
  cases f.takesValue <;> simp [eq_comm]

lemma after_eq_flags_iff {f : Flag} {t : Token} {fs : List Flag} {v : Valued} :
    after f t = .flags fs v ↔ ∃ gs, t = .flags gs v ∧ fs = f :: gs := by
  cases t with
  | flags gs w =>
    simp only [after, flags.injEq]
    constructor
    · rintro ⟨rfl, rfl⟩
      exact ⟨gs, ⟨rfl, rfl⟩, rfl⟩
    · rintro ⟨hs, ⟨rfl, rfl⟩, rfl⟩
      exact ⟨rfl, rfl⟩
  | _ => simp [after]

/-- Letters are read as the group that they are. -/
lemma ofLetters_eq_flags_iff {f : Flag} {c : Char} {cs : List Char} {fs : List Flag} {v : Valued}
    (hf : f.letter? = some c) : ofLetters f cs = .flags fs v ↔ Letters (c :: cs) fs v := by
  constructor
  · intro h
    induction cs generalizing f c fs with
    | nil =>
      rcases alone_eq_flags_iff.mp h with ⟨hvalued, rfl, rfl⟩ | ⟨hplain, rfl, rfl⟩
      · exact .opened hf hvalued
      · exact .last hf hplain
    | cons d cs ih =>
      rw [ofLetters] at h
      split at h
      · rename_i hvalued
        obtain ⟨rfl, rfl⟩ := Token.flags.inj h
        exact .joined hf hvalued (List.cons_ne_nil d cs)
      · rename_i hplain
        split at h
        · rename_i g hg
          obtain ⟨gs, hgs, rfl⟩ := after_eq_flags_iff.mp h
          exact .plain hf (by simpa using hplain) (ih (Flag.ofLetter?_eq_some_iff.mp hg) hgs)
        · cases h
  · intro h
    generalize hrow : c :: cs = row at h
    induction h generalizing f c cs with
    | @last _ g hg hplain =>
      obtain ⟨rfl, rfl⟩ := List.cons.inj hrow
      obtain rfl := Flag.letter?_injective hf hg
      exact alone_eq_flags_iff.mpr (.inr ⟨hplain, rfl, rfl⟩)
    | @opened _ g hg hvalued =>
      obtain ⟨rfl, rfl⟩ := List.cons.inj hrow
      obtain rfl := Flag.letter?_injective hf hg
      exact alone_eq_flags_iff.mpr (.inl ⟨hvalued, rfl, rfl⟩)
    | @joined _ g value hg hvalued hvalue =>
      obtain ⟨rfl, rfl⟩ := List.cons.inj hrow
      obtain rfl := Flag.letter?_injective hf hg
      obtain ⟨d, cs, rfl⟩ := List.exists_cons_of_ne_nil hvalue
      rw [ofLetters, if_pos hvalued]
    | @plain _ g rest gs w hg hplain hrest ih =>
      obtain ⟨rfl, rfl⟩ := List.cons.inj hrow
      obtain rfl := Flag.letter?_injective hf hg
      obtain ⟨d, cs, rfl⟩ := List.exists_cons_of_ne_nil hrest.ne_nil
      obtain ⟨h, hh⟩ := hrest.exists_letter
      rw [ofLetters, if_neg (by simp [hplain]), Flag.ofLetter?_eq_some_iff.mpr hh]
      exact after_eq_flags_iff.mpr ⟨gs, ih hh rfl, rfl⟩

lemma ofEquation_false_eq_flags_iff {f : Flag} {cs : List Char} {fs : List Flag} {v : Valued} :
    ofEquation f false cs = .flags fs v ↔
      f.takesValue = true ∧ fs = [] ∧ v = .joined f (String.ofList cs) := by
  rw [ofEquation]
  cases f.takesValue <;> simp [eq_comm]

/-- The equals sign behind a letter stands before a value or before more letters. -/
lemma ofEquation_true_eq_flags_iff {f : Flag} {c : Char} {cs : List Char} {fs : List Flag}
    {v : Valued} (hf : f.letter? = some c) : ofEquation f true cs = .flags fs v ↔
      (f.takesValue = true ∧ fs = [] ∧ v = .joined f (String.ofList cs)) ∨
        (f.takesValue = false ∧ ∃ gs, fs = f :: gs ∧ Letters cs gs v) := by
  rw [ofEquation]
  cases hvalued : f.takesValue with
  | true => simp [eq_comm]
  | false =>
    simp only [Bool.false_eq_true, if_false, Bool.true_and, false_and, false_or, true_and]
    split
    · rename_i hcs
      rw [ofLetters_eq_flags_iff hf, Letters.cons_iff hf hvalued (by simpa using hcs)]
    · rename_i hcs
      have hcs : cs = [] := by simpa using hcs
      constructor
      · exact fun h => nomatch h
      · rintro ⟨gs, -, hletters⟩
        exact absurd hcs hletters.ne_nil

/-! ## Arguments -/

/-- The argument spells flags without a value and then possibly one with a value. An equals sign
behind the first letter is passed over. -/
inductive Spells : List Char → List Flag → Valued → Prop
  | name {name : List Char} {f : Flag} (hname : f.IsNamed name) (hplain : f.takesValue = false) :
      Spells name [f] .none
  | nameOpened {name : List Char} {f : Flag} (hname : f.IsNamed name)
      (hvalued : f.takesValue = true) : Spells name [] (.open f)
  | nameJoined {name value : List Char} {f : Flag} (hname : f.IsNamed name)
      (hvalued : f.takesValue = true) :
      Spells (name ++ '=' :: value) [] (.joined f (String.ofList value))
  | letters {c : Char} {cs : List Char} {fs : List Flag} {v : Valued}
      (hletters : Letters (c :: cs) fs v) (hcs : cs.head? ≠ some '=') : Spells ('-' :: c :: cs) fs v
  | letterJoined {c : Char} {value : List Char} {f : Flag} (hletter : f.letter? = some c)
      (hvalued : f.takesValue = true) :
      Spells ('-' :: c :: '=' :: value) [] (.joined f (String.ofList value))
  | lettersJoined {c : Char} {cs : List Char} {f : Flag} {fs : List Flag} {v : Valued}
      (hletter : f.letter? = some c) (hplain : f.takesValue = false) (hletters : Letters cs fs v) :
      Spells ('-' :: c :: '=' :: cs) (f :: fs) v

/-- No long name begins like the argument, and no flag has its letter. -/
def NamesNoFlag : List Char → Prop
  | '-' :: '-' :: rest =>
    ∀ f : Flag, ¬ (Text.cutAt '=' ('-' :: '-' :: rest)).1 <+: f.longName.toList
  | '-' :: c :: _ => ∀ f : Flag, f.letter? ≠ some c
  | _ => True

/-- The argument is a value: it has no dash at its front or nothing else, or it names no flag and is
a negative number or has a space in it. -/
def IsValue (s : List Char) : Prop :=
  s.head? ≠ some '-' ∨ s = ['-'] ∨ NamesNoFlag s ∧ (isNegativeNumber s = true ∨ ' ' ∈ s)

lemma ofUnnamed_eq_value_iff {s t : String} : ofUnnamed s = .value t ↔
    t = s ∧ (isNegativeNumber s.toList = true ∨ ' ' ∈ s.toList) := by
  rw [ofUnnamed]
  split
  · rename_i h
    rw [Bool.or_eq_true, List.contains_iff_mem] at h
    simp only [Token.value.injEq, h, and_true]
    exact eq_comm
  · rename_i h
    rw [Bool.or_eq_true, List.contains_iff_mem] at h
    simp [h]

lemma ofUnnamed_ne_flags {s : String} {fs : List Flag} {v : Valued} :
    ofUnnamed s ≠ .flags fs v := by
  rw [ofUnnamed]
  split <;> exact fun h => nomatch h

lemma after_eq_value_iff {f : Flag} {t : Token} {s : String} :
    after f t = .value s ↔ t = .value s := by
  cases t <;> simp [after]

lemma alone_ne_value {f : Flag} {t : String} : alone f ≠ .value t := by
  rw [alone]
  split <;> exact fun h => nomatch h

lemma ofLetters_ne_value {f : Flag} {cs : List Char} {t : String} : ofLetters f cs ≠ .value t := by
  induction cs generalizing f with
  | nil => exact alone_ne_value
  | cons c cs ih =>
    rw [ofLetters]
    split
    · exact fun h => nomatch h
    · split
      · exact fun h => ih (after_eq_value_iff.mp h)
      · exact fun h => nomatch h

lemma ofEquation_ne_value {f : Flag} {letter : Bool} {cs : List Char} {t : String} :
    ofEquation f letter cs ≠ .value t := by
  rw [ofEquation]
  split
  · exact fun h => nomatch h
  · split
    · exact ofLetters_ne_value
    · exact fun h => nomatch h

section Reading

variable {s t : String} {fs : List Flag} {v : Valued}

/-- An argument with a dash and a letter at its front is read by its letters. -/
lemma read?_of_letter {c : Char} {cs : List Char} {f : Flag} (hs : s.toList = '-' :: c :: cs)
    (hf : f.letter? = some c) :
    (∀ text, cs = '=' :: text → read? s = some (ofEquation f true text)) ∧
      (cs.head? ≠ some '=' → read? s = some (ofLetters f cs)) := by
  have hc : c ≠ '-' := by
    rintro rfl
    cases f <;> simp [Flag.letter?] at hf
  have hfind := Flag.ofLetter?_eq_some_iff.mpr hf
  unfold read?
  split
  · rename_i heq
    exact absurd (List.cons.inj (List.cons.inj (hs.symm.trans heq)).2).1 hc
  · rename_i hshape
    obtain ⟨rfl, rfl⟩ := List.cons.inj (List.cons.inj (hs.symm.trans hshape)).2
    rw [hfind]
    constructor
    · rintro text rfl
      rfl
    · intro hcs
      split
      · exact absurd rfl hcs
      · rename_i heq _
        rw [Option.some.inj heq]
      · rename_i heq
        cases heq
  · rename_i h
    exact absurd hs (h c cs)

/-- An argument with a long name at its front is read by this name. -/
lemma read?_of_name {cs name : List Char} {joined : Option (List Char)} {f : Flag}
    (hs : s.toList = cs) (hcut : Text.cutAt '=' cs = (name, joined)) (hname : f.IsNamed name) :
    read? s = some (joined.elim (alone f) (ofEquation f false)) := by
  have hfind := Flag.ofLongName_eq_singleton_iff.mpr hname
  obtain ⟨rest, hdashes⟩ : ∃ rest, s.toList = '-' :: '-' :: rest := by
    obtain ⟨⟨rest, rfl⟩, -⟩ := hname.exists_cons
    cases joined with
    | none => exact ⟨rest, hs.trans (Text.eq_of_cutAt_none hcut)⟩
    | some text => exact ⟨_, hs.trans (Text.eq_append_of_cutAt hcut)⟩
  unfold read?
  rw [← hs] at hcut
  simp only [hcut, hfind]
  split
  · cases joined <;> rfl
  · rename_i hne heq
    exact absurd (List.cons.inj (List.cons.inj (hdashes.symm.trans heq)).2).1.symm hne
  · rename_i hne _
    exact absurd hdashes (hne rest)

/-- An argument that is read as flags spells them. -/
lemma spells_of_read? (h : read? s = some (.flags fs v)) : Spells s.toList fs v := by
  unfold read? at h
  split at h
  · obtain ⟨name, joined, hcut⟩ : ∃ name joined, Text.cutAt '=' s.toList = (name, joined) :=
      ⟨_, _, rfl⟩
    simp only [hcut] at h
    split at h
    · rename_i f text hfind
      have hname := Flag.ofLongName_eq_singleton_iff.mp hfind
      obtain ⟨hvalued, rfl, rfl⟩ := ofEquation_false_eq_flags_iff.mp (Option.some.inj h)
      rw [Text.eq_append_of_cutAt hcut]
      exact .nameJoined hname hvalued
    · rename_i f hfind
      have hname := Flag.ofLongName_eq_singleton_iff.mp hfind
      rw [Text.eq_of_cutAt_none hcut]
      rcases alone_eq_flags_iff.mp (Option.some.inj h) with
        ⟨hvalued, rfl, rfl⟩ | ⟨hplain, rfl, rfl⟩
      · exact .nameOpened hname hvalued
      · exact .name hname hplain
    · exact absurd (Option.some.inj h) ofUnnamed_ne_flags
    · cases h
  · rename_i c cs _ hs
    rw [hs]
    split at h
    · rename_i f text hf
      have hf := Flag.ofLetter?_eq_some_iff.mp hf
      rcases (ofEquation_true_eq_flags_iff hf).mp (Option.some.inj h) with
        ⟨hvalued, rfl, rfl⟩ | ⟨hplain, gs, rfl, hletters⟩
      · exact .letterJoined hf hvalued
      · exact .lettersJoined hf hplain hletters
    · rename_i f hf hne
      have hf := Flag.ofLetter?_eq_some_iff.mp hf
      refine .letters ((ofLetters_eq_flags_iff hf).mp (Option.some.inj h)) fun hhead => ?_
      obtain ⟨rest, rfl⟩ := List.head?_eq_some_iff.mp hhead
      exact hne rest rfl
    · exact absurd (Option.some.inj h) ofUnnamed_ne_flags
  · cases Option.some.inj h

/-- An argument that spells flags is read as these. -/
lemma read?_of_spells (h : Spells s.toList fs v) : read? s = some (.flags fs v) := by
  generalize hs : s.toList = cs at h
  cases h with
  | name hname hplain =>
    rw [read?_of_name hs (Text.cutAt_of_notMem hname.exists_cons.2) hname]
    exact congrArg some (alone_eq_flags_iff.mpr (.inr ⟨hplain, rfl, rfl⟩))
  | nameOpened hname hvalued =>
    rw [read?_of_name hs (Text.cutAt_of_notMem hname.exists_cons.2) hname]
    exact congrArg some (alone_eq_flags_iff.mpr (.inl ⟨hvalued, rfl, rfl⟩))
  | nameJoined hname hvalued =>
    rw [read?_of_name hs (Text.cutAt_append hname.exists_cons.2) hname]
    exact congrArg some (ofEquation_false_eq_flags_iff.mpr ⟨hvalued, rfl, rfl⟩)
  | letters hletters hcs =>
    obtain ⟨f, hf⟩ := hletters.exists_letter
    rw [(read?_of_letter hs hf).2 hcs]
    exact congrArg some ((ofLetters_eq_flags_iff hf).mpr hletters)
  | letterJoined hf hvalued =>
    rw [(read?_of_letter hs hf).1 _ rfl]
    exact congrArg some ((ofEquation_true_eq_flags_iff hf).mpr (.inl ⟨hvalued, rfl, rfl⟩))
  | lettersJoined hf hplain hletters =>
    rw [(read?_of_letter hs hf).1 _ rfl]
    exact congrArg some ((ofEquation_true_eq_flags_iff hf).mpr
      (.inr ⟨hplain, _, rfl, hletters⟩))

/-- An argument is read as flags exactly if it spells them. -/
lemma read?_eq_flags_iff : read? s = some (.flags fs v) ↔ Spells s.toList fs v :=
  ⟨spells_of_read?, read?_of_spells⟩

/-- With a dash and more at its front, a value is one that names no flag. -/
lemma isValue_iff_of_dash {c : Char} {cs : List Char} (hs : s.toList = '-' :: c :: cs) :
    IsValue s.toList ↔
      NamesNoFlag s.toList ∧ (isNegativeNumber s.toList = true ∨ ' ' ∈ s.toList) := by
  rw [IsValue]
  simp [hs]

lemma isValue_of_dashless (h : ∀ c cs, s.toList ≠ '-' :: c :: cs) : IsValue s.toList := by
  cases hs : s.toList with
  | nil => exact .inl (by simp)
  | cons c cs =>
    by_cases hc : c = '-'
    · subst hc
      cases cs with
      | nil => exact .inr (.inl rfl)
      | cons d cs => exact absurd hs (h d cs)
    · exact .inl (by simpa using hc)

lemma namesNoFlag_iff_of_name {cs name : List Char} {joined : Option (List Char)}
    (hs : s.toList = '-' :: '-' :: cs) (hcut : Text.cutAt '=' s.toList = (name, joined)) :
    NamesNoFlag s.toList ↔ Flag.ofLongName (String.ofList name) = [] := by
  have hname : name = (Text.cutAt '=' s.toList).1 := by rw [hcut]
  rw [hname, Flag.ofLongName_eq_nil_iff, hs, NamesNoFlag]

lemma namesNoFlag_iff_of_letter {c : Char} {cs : List Char} (hs : s.toList = '-' :: c :: cs)
    (hc : c ≠ '-') : NamesNoFlag s.toList ↔ Flag.ofLetter? c = none := by
  rw [hs, NamesNoFlag, Option.eq_none_iff_forall_ne_some]
  · exact forall_congr' fun f => not_congr Flag.ofLetter?_eq_some_iff.symm
  · exact hc

/-- An argument is read as a value exactly if it is one, and then as itself. -/
lemma read?_eq_value_iff : read? s = some (.value t) ↔ t = s ∧ IsValue s.toList := by
  have hnamed : ∀ {c cs}, s.toList = '-' :: c :: cs → ¬ NamesNoFlag s.toList →
      ¬ (t = s ∧ IsValue s.toList) := by
    rintro c cs hs hnamed ⟨-, h⟩
    exact hnamed ((isValue_iff_of_dash hs).mp h).1
  have hunnamed : ∀ {c cs}, s.toList = '-' :: c :: cs → NamesNoFlag s.toList →
      (some (ofUnnamed s) = some (.value t) ↔ t = s ∧ IsValue s.toList) := by
    intro c cs hs hnone
    rw [Option.some.injEq, ofUnnamed_eq_value_iff, isValue_iff_of_dash hs, and_iff_right hnone]
  unfold read?
  split
  · rename_i cs hs
    obtain ⟨name, joined, hcut⟩ : ∃ name joined, Text.cutAt '=' s.toList = (name, joined) :=
      ⟨_, _, rfl⟩
    have hnone := namesNoFlag_iff_of_name hs hcut
    simp only [hcut]
    split
    · rename_i hfind
      refine iff_of_false (fun h => ofEquation_ne_value (Option.some.inj h)) (hnamed hs ?_)
      rw [hnone, hfind]
      exact List.cons_ne_nil _ _
    · rename_i hfind
      refine iff_of_false (fun h => alone_ne_value (Option.some.inj h)) (hnamed hs ?_)
      rw [hnone, hfind]
      exact List.cons_ne_nil _ _
    · rename_i hfind
      exact hunnamed hs (hnone.mpr hfind)
    · rename_i hmany _ _
      exact iff_of_false (Option.some_ne_none _).symm (hnamed hs (mt hnone.mp hmany))
  · rename_i c cs hc hs
    have hnone := namesNoFlag_iff_of_letter hs fun h => hc h
    split
    · rename_i hfind
      refine iff_of_false (fun h => ofEquation_ne_value (Option.some.inj h)) (hnamed hs ?_)
      rw [hnone, hfind]
      exact Option.some_ne_none _
    · rename_i hfind _
      refine iff_of_false (fun h => ofLetters_ne_value (Option.some.inj h)) (hnamed hs ?_)
      rw [hnone, hfind]
      exact Option.some_ne_none _
    · rename_i hfind
      exact hunnamed hs (hnone.mpr hfind)
  · rename_i hdash
    rw [Option.some.injEq, value.injEq, and_iff_left (isValue_of_dashless hdash)]
    exact eq_comm

end Reading

end Token

end AsmBridge
