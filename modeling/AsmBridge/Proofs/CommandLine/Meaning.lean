import AsmBridge.CommandLine.Settings
import AsmBridge.Conversion.Unit
import AsmBridge.Proofs.CommandLine.Spelling
import AsmBridge.Proofs.Outcome

/-!
# The meaning of a command line

A command line says which flags are used, with which values, and which values stand by themselves
(`Says`). Of the uses of a flag with a value the last one counts. The reader of the command line
gives the settings that the flags denote (`exists_says_of_read`).
-/

namespace AsmBridge

/-- A use of a flag, with its value if one is given. -/
structure FlagUse where
  flag : Flag
  value : Option String := none
deriving DecidableEq

/-- The use of the last flag of a group, and the arguments that are left of those behind the group
when it has its value. -/
inductive Valued.Takes : Valued → List String → List FlagUse → List String → Prop
  | none (args : List String) : Takes .none args [] args
  | joined (f : Flag) (v : String) (args : List String) :
      Takes (.joined f v) args [⟨f, some v⟩] args
  | opened {f : Flag} {v : String} {args : List String} (hv : Token.IsValue v.toList) :
      Takes (.open f) (v :: args) [⟨f, some v⟩] args

/-- The arguments say that flags are used, and which values stand by themselves; behind the mark all
are of these. -/
inductive Says : List String → List FlagUse → List String → Prop
  | nil : Says [] [] []
  | mark (values : List String) : Says ("--" :: values) [] values
  | value {s : String} {args : List String} {us : List FlagUse} {values : List String}
      (hs : Token.IsValue s.toList) (h : Says args us values) : Says (s :: args) us (s :: values)
  | group {s : String} {fs : List Flag} {v : Valued} {args rest : List String}
      {us us' : List FlagUse} {values : List String} (hs : Token.Spells s.toList fs v)
      (hv : v.Takes args us rest) (h : Says rest us' values) :
      Says (s :: args) (fs.map (⟨·, none⟩) ++ (us ++ us')) values

lemma Valued.Takes.unique {v : Valued} {args rest rest' : List String} {us us' : List FlagUse}
    (h : v.Takes args us rest) (h' : v.Takes args us' rest') : us = us' ∧ rest = rest' := by
  cases h <;> cases h' <;> exact ⟨rfl, rfl⟩

section Unique

open Token

lemma read?_mark : read? "--" = none := by decide

/-- A command line says one thing. -/
lemma Says.unique {args : List String} {us us' : List FlagUse} {values values' : List String}
    (h : Says args us values) (h' : Says args us' values') : us = us' ∧ values = values' := by
  -- Two rules for one argument would be two readings of it.
  induction h generalizing us' values' with
  | nil =>
    cases h'
    exact ⟨rfl, rfl⟩
  | mark values =>
    cases h' with
    | mark => exact ⟨rfl, rfl⟩
    | value hs _ => exact nomatch read?_mark.symm.trans (read?_eq_value_iff.mpr ⟨rfl, hs⟩)
    | group hs _ _ => exact nomatch read?_mark.symm.trans (read?_eq_flags_iff.mpr hs)
  | value hs _ ih =>
    have hs := read?_eq_value_iff.mpr ⟨rfl, hs⟩
    cases h' with
    | mark => exact nomatch hs.symm.trans read?_mark
    | value _ h' =>
      obtain ⟨rfl, rfl⟩ := ih h'
      exact ⟨rfl, rfl⟩
    | group hs' _ _ => exact nomatch hs.symm.trans (read?_eq_flags_iff.mpr hs')
  | group hs hv _ ih =>
    have hs := read?_eq_flags_iff.mpr hs
    cases h' with
    | mark => exact nomatch hs.symm.trans read?_mark
    | value hs' _ => exact nomatch hs.symm.trans (read?_eq_value_iff.mpr ⟨rfl, hs'⟩)
    | group hs' hv' h' =>
      cases hs.symm.trans (read?_eq_flags_iff.mpr hs')
      obtain ⟨rfl, rfl⟩ := hv.unique hv'
      obtain ⟨rfl, rfl⟩ := ih h'
      exact ⟨rfl, rfl⟩

end Unique

namespace Flag

/-- The flag is used without a value. -/
def isUsed (f : Flag) (us : List FlagUse) : Bool := us.contains ⟨f, none⟩

/-- The last value that is given to the flag. -/
def lastValue? (f : Flag) (us : List FlagUse) : Option String :=
  (us.filterMap fun u => if u.flag = f then u.value else none).getLast?

variable {f g : Flag} {us : List FlagUse} {v : String}

@[simp] lemma isUsed_concat_none :
    f.isUsed (us ++ [⟨g, none⟩]) = (f.isUsed us || decide (f = g)) := by
  simp [isUsed]

@[simp] lemma isUsed_concat_some : f.isUsed (us ++ [⟨g, some v⟩]) = f.isUsed us := by
  simp [isUsed]

@[simp] lemma lastValue?_concat_none : f.lastValue? (us ++ [⟨g, none⟩]) = f.lastValue? us := by
  simp [lastValue?]

@[simp] lemma lastValue?_concat_some :
    f.lastValue? (us ++ [⟨g, some v⟩]) = if g = f then some v else f.lastValue? us := by
  by_cases h : g = f <;> simp [lastValue?, h]

end Flag

namespace Settings

/-- The settings that uses of flags denote. -/
def ofUses (us : List FlagUse) : Settings :=
  { prototypes := (Flag.prototypes.lastValue? us).elim "" fun v => (value? v).getD ""
    stripComments := Flag.stripComments.isUsed us
    compact := Flag.compact.isUsed us
    keepDirectives := Flag.keepDirectives.isUsed us
    stubs := (Flag.stubs.lastValue? us).elim "" fun v => (value? v).getD ""
    package := (Flag.package.lastValue? us).elim "main" fun v => (value? v).getD noValue
    stubPackage := (Flag.stubPackage.lastValue? us).elim "" fun v => (value? v).getD noValue
    jobs := (Flag.jobs.lastValue? us).elim (some 1) fun v => Text.integer? .decimal v.toList }

/-- One use more of a flag without a value. -/
lemma setFlag_ofUses {us : List FlagUse} {f : Flag} {s : Settings}
    (h : (ofUses us).setFlag f = .ok s) : s = ofUses (us ++ [⟨f, none⟩]) := by
  cases f with
  | help => cases h
  | version => cases h
  | _ =>
    obtain rfl := Except.ok.inj h
    simp [ofUses]

/-- One use more of a flag with a value. -/
lemma setValue_ofUses {us : List FlagUse} {f : Flag} {v : String} {s : Settings}
    (h : (ofUses us).setValue f v = .ok s) : s = ofUses (us ++ [⟨f, some v⟩]) := by
  cases f with
  | jobs =>
    have hjobs : (ofUses us).setValue .jobs v =
        .ok { ofUses us with jobs := Text.integer? .decimal v.toList } := by
      unfold setValue at h ⊢
      dsimp only at h ⊢
      by_cases hv : v = "--"
      · subst hv
        have hnumber : Text.integer? .decimal "--".toList = none := by decide
        rw [hnumber]
        rfl
      · have hvalue : value? v = some v := by simp [value?, hv]
        rw [hvalue, Option.map_some] at h ⊢
        cases hnumber : Text.integer? .decimal v.toList with
        | some n => rfl
        | none =>
          rw [hnumber] at h
          cases h
    obtain rfl := Except.ok.inj (hjobs.symm.trans h)
    simp [ofUses]
  | _ =>
    obtain rfl := Except.ok.inj h
    simp [ofUses]

lemma foldlM_setFlag_ofUses {us : List FlagUse} {fs : List Flag} {s : Settings}
    (h : fs.foldlM setFlag (ofUses us) = .ok s) : s = ofUses (us ++ fs.map (⟨·, none⟩)) := by
  induction fs generalizing us with
  | nil =>
    rw [List.foldlM_nil, pure_eq_ok] at h
    simp [h]
  | cons f fs ih =>
    obtain ⟨t, ht, h⟩ := foldlM_cons_eq_ok.mp h
    rw [setFlag_ofUses ht] at h
    simp [ih h]

/-- Behind a group with a value the reading goes on with the settings that the uses denote. -/
lemma continues_of_group {us : List FlagUse} {fs : List Flag} {f : Flag} {v : String}
    {k : Settings → Except UsageEnd ArgumentState} {s : ArgumentState}
    (h : (do k (← (← fs.foldlM setFlag (ofUses us)).setValue f v)) = .ok s) :
    k (ofUses (us ++ (fs.map (⟨·, none⟩) ++ [⟨f, some v⟩]))) = .ok s := by
  obtain ⟨t, ht, h⟩ := bind_eq_ok.mp h
  obtain ⟨t', ht', h⟩ := bind_eq_ok.mp h
  rw [foldlM_setFlag_ofUses ht] at ht'
  rwa [setValue_ofUses ht', List.append_assoc] at h

end Settings

namespace ArgumentState

variable {s s' : ArgumentState} {us : List FlagUse}

lemma settings_take (s : ArgumentState) (path : Option String) :
    (s.take path).settings = s.settings := by
  unfold take
  split <;> rfl

lemma paths_take {path : Option String} (h : (s.take path).surplus = false) :
    s.surplus = false ∧ (s.take path).paths = s.paths ++ [path] := by
  unfold take at h ⊢
  split at h
  · rename_i hlength
    rw [if_pos hlength]
    exact ⟨h, rfl⟩
  · cases h

/-- The state behind arguments that no mark is among is what they say more. -/
lemma says_of_readTokens {args : List String} {tokens : List Token}
    (hread : List.Forall₂ (fun a t => Token.read? a = some t) args tokens)
    (h : readTokens s tokens = .ok s') (hsurplus : s'.surplus = false)
    (hs : s.settings = .ofUses us) :
    s.surplus = false ∧ ∃ us' values, s'.settings = .ofUses (us ++ us') ∧
      s'.paths = s.paths ++ values.map some ∧
      ∀ back rest, Says back [] rest → Says (args ++ back) us' (values ++ rest) := by
  induction s, tokens using readTokens.induct generalizing args us with
  | case1 s =>
    cases hread
    obtain rfl := Except.ok.inj h
    exact ⟨hsurplus, [], [], by simp [hs], by simp, fun _ _ h => h⟩
  | case2 s v rest ih =>
    cases hread with
    | cons ha hread =>
      obtain ⟨rfl, hvalue⟩ := Token.read?_eq_value_iff.mp ha
      obtain ⟨htake, us', values, hsettings, hpaths, hsaid⟩ :=
        ih hread h ((settings_take s _).trans hs)
      obtain ⟨hnone, htaken⟩ := paths_take htake
      refine ⟨hnone, us', v :: values, hsettings, ?_, fun _ _ hb => .value hvalue (hsaid _ _ hb)⟩
      rw [hpaths, htaken, List.map_cons, List.append_assoc, List.singleton_append]
  | case3 s rest ih =>
    cases hread with
    | cons _ hread =>
      obtain ⟨hfalse, -⟩ := ih hread h hs
      cases hfalse
  | case4 s tail => cases h
  | case5 s plain f v rest ih =>
    cases hread with
    | cons ha hread =>
      cases hread with
      | cons hb hread =>
        obtain ⟨rfl, hvalue⟩ := Token.read?_eq_value_iff.mp hb
        rw [readTokens, hs] at h
        obtain ⟨hnone, us', values, hsettings, hpaths, hsaid⟩ :=
          ih _ hread (Settings.continues_of_group h) rfl
        refine ⟨hnone, _, values, ?_, hpaths, fun _ _ hb =>
          .group (Token.read?_eq_flags_iff.mp ha) (.opened hvalue) (hsaid _ _ hb)⟩
        simpa using hsettings
  | case6 s plain f tail hne =>
    cases tail with
    | nil => cases h
    | cons t tail =>
      cases t with
      | value v => exact (hne v tail rfl).elim
      | _ => cases h
  | case7 s plain f v rest ih =>
    cases hread with
    | cons ha hread =>
      rw [readTokens, hs] at h
      obtain ⟨hnone, us', values, hsettings, hpaths, hsaid⟩ :=
        ih _ hread (Settings.continues_of_group h) rfl
      refine ⟨hnone, _, values, ?_, hpaths, fun _ _ hb =>
        .group (Token.read?_eq_flags_iff.mp ha) (.joined f v _) (hsaid _ _ hb)⟩
      simpa using hsettings
  | case8 s plain rest ih =>
    cases hread with
    | cons ha hread =>
      obtain ⟨t, ht, h⟩ := bind_eq_ok.mp h
      rw [hs] at ht
      obtain ⟨hnone, us', values, hsettings, hpaths, hsaid⟩ :=
        ih t hread h (Settings.foldlM_setFlag_ofUses ht)
      refine ⟨hnone, _, values, ?_, hpaths, fun _ _ hb =>
        .group (Token.read?_eq_flags_iff.mp ha) (.none _) (hsaid _ _ hb)⟩
      simpa using hsettings

/-- The values behind the mark are taken one after another. -/
lemma paths_foldl_take {path : String → Option String} {values : List String}
    (h : (values.foldl (fun s v => s.take (path v)) s).surplus = false) :
    s.surplus = false ∧
      (values.foldl (fun s v => s.take (path v)) s).paths = s.paths ++ values.map path ∧
      (values.foldl (fun s v => s.take (path v)) s).settings = s.settings := by
  induction values generalizing s with
  | nil => exact ⟨h, by simp, rfl⟩
  | cons v values ih =>
    obtain ⟨htake, hpaths, hsettings⟩ := ih h
    obtain ⟨hnone, htaken⟩ := paths_take htake
    refine ⟨hnone, ?_, hsettings.trans (settings_take s _)⟩
    rw [List.foldl_cons, hpaths, htaken, List.map_cons, List.append_assoc, List.singleton_append]

lemma eq_of_map_value? {values ws : List String}
    (h : values.map Settings.value? = ws.map some) : ws = values := by
  have hrow := map_eq_map_iff_forall₂.mp h
  refine (List.forall₂_eq_eq_eq (α := String) ▸ hrow.imp fun v w hvw => ?_ : values = ws).symm
  unfold Settings.value? at hvw
  split at hvw
  · cases hvw
  · exact Option.some.inj hvw

/-- Of the values behind the mark nothing but a second mark is left out. -/
lemma paths_readRest {values : List String} (h : (s.readRest values).surplus = false) :
    s.surplus = false ∧ (s.readRest values).settings = s.settings ∧
      ∃ paths, (s.readRest values).paths = s.paths ++ paths ∧
        ∀ ws : List String, paths = ws.map some → ws = values := by
  unfold readRest at h ⊢
  dsimp only at h ⊢
  split at h
  · obtain ⟨hnone, hpaths, hsettings⟩ := paths_foldl_take h
    exact ⟨hnone, hsettings, _, hpaths, fun _ => eq_of_map_value?⟩
  · rename_i v rest _
    obtain ⟨htake, hpaths, hsettings⟩ := paths_foldl_take h
    obtain ⟨hnone, htaken⟩ := paths_take htake
    refine ⟨hnone, hsettings.trans (settings_take s _), some v :: rest.map Settings.value?, ?_, ?_⟩
    · rw [hpaths, htaken, List.append_assoc, List.singleton_append]
    · intro ws hws
      cases ws with
      | nil => cases hws
      | cons w ws =>
        obtain ⟨hv, hrest⟩ := List.cons.inj hws
        rw [eq_of_map_value? hrest, Option.some.inj hv]
  · cases h

/-- Without a mark there are no values behind it. -/
lemma paths_behind {back : Option (List String)}
    (h : (back.elim s s.readRest).surplus = false) :
    s.surplus = false ∧ (back.elim s s.readRest).settings = s.settings ∧
      ∃ paths, (back.elim s s.readRest).paths = s.paths ++ paths ∧
        ∀ ws : List String, paths = ws.map some → ws = back.getD [] := by
  cases back with
  | none => exact ⟨h, rfl, [], by simp, fun ws hws => List.map_eq_nil_iff.mp hws.symm⟩
  | some back => exact paths_readRest h

lemma finish_eq_ok {t : Settings} : s.finish = .ok t ↔ ∃ input output,
    s.paths = [some input, output] ∧ s.surplus = false ∧
      t = { s.settings with input := input, output := output } := by
  unfold finish
  constructor
  · intro h
    split at h
    · rename_i input output hpaths hsurplus
      exact ⟨input, output, hpaths, hsurplus, (Except.ok.inj h).symm⟩
    · cases h
  · rintro ⟨input, output, hpaths, hsurplus, rfl⟩
    rw [hpaths, hsurplus]

end ArgumentState

/-- The arguments are those before the mark, and the mark with those behind it. -/
lemma splitAtMark_eq (args : List String) :
    args = (splitAtMark args).1 ++ (splitAtMark args).2.elim [] fun back => "--" :: back := by
  induction args with
  | nil => rfl
  | cons s rest ih =>
    rw [splitAtMark]
    split
    · rename_i hs
      rw [eq_of_beq hs]
      rfl
    · exact congrArg (s :: ·) ih

/-- What is read from a command line that names a file to write is what it says. -/
lemma exists_says_of_read {args : List String} {s : Settings} {output : String}
    (h : Settings.read args = .ok s) (houtput : s.output = some output) :
    ∃ us, Says args us [s.input, output] ∧
      s = { Settings.ofUses us with input := s.input, output := some output } := by
  have hargs := splitAtMark_eq args
  unfold Settings.read at h
  generalize splitAtMark args = parts at h hargs
  obtain ⟨front, back⟩ := parts
  dsimp only at h hargs
  split at h
  · cases h
  · rename_i tokens htokens
    obtain ⟨t, ht, h⟩ := bind_eq_ok.mp h
    have hfinish : (back.elim t t.readRest).finish = .ok s := by
      cases back <;> exact h
    obtain ⟨input, output', hpaths, hsurplus, rfl⟩ := ArgumentState.finish_eq_ok.mp hfinish
    obtain rfl : output' = some output := houtput
    obtain ⟨hnone, hsettings, paths, hbehind, hrest⟩ := ArgumentState.paths_behind hsurplus
    obtain ⟨-, us, values, hmeaning, hvalues, hsaid⟩ :=
      ArgumentState.says_of_readTokens (mapM_eq_some.mp htokens) ht hnone
        (rfl : _ = Settings.ofUses [])
    -- The two paths are the values before the mark and those behind it.
    have hboth : [input, output].map some = values.map some ++ paths := by
      rw [← List.nil_append (values.map some), ← hvalues, ← hbehind, hpaths]
      rfl
    obtain ⟨first, rest, hsplit, hfirst, rfl⟩ := List.map_eq_append_iff.mp hboth
    obtain rfl := List.map_injective_iff.mpr (fun _ _ => Option.some.inj) hfirst
    obtain rfl := hrest rest rfl
    have hback : Says (back.elim [] fun back => "--" :: back) [] (back.getD []) := by
      cases back with
      | none => exact .nil
      | some back => exact .mark back
    refine ⟨us, ?_, ?_⟩
    · rw [hargs]
      exact hsplit ▸ hsaid _ _ hback
    · rw [hsettings, hmeaning]
      rfl

end AsmBridge
