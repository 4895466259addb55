import AsmBridge.CommandLine.Run
import AsmBridge.Proofs.CommandLine.Meaning

/-!
# All or nothing

Files are changed only when the conversion is complete. A run that is done leaves the listing that
the flags ask for in the file to write, the Go declarations in the file for them, and all other files
alone, and one that fails leaves the directory as it was, with one exception: the listing is written
first, and it stays where the file for the declarations cannot be written (`run_atomic`,
`not_run_atomic`).
-/

namespace AsmBridge

/-! ## What a command line asks for -/

/-- The uses of flags, the file to convert and the file to write. -/
structure CommandLine where
  uses : List FlagUse
  input : String
  output : String

namespace CommandLine

/-- The file that a flag names. Neither an empty name nor the mark is one. -/
def file? (c : CommandLine) (f : Flag) : Option String :=
  (f.lastValue? c.uses).filter fun v => v ≠ "" ∧ v ≠ "--"

/-- The word that a flag gives. The mark stands for an empty list of words. -/
def word (c : CommandLine) (f : Flag) (unset : String) : String :=
  (f.lastValue? c.uses).elim unset fun v => if v = "--" then "[]" else v

/-- The number of jobs, which the mark leaves open. -/
def jobs (c : CommandLine) : Option ℤ :=
  (Flag.jobs.lastValue? c.uses).elim (some 1) fun v => Text.integer? .decimal v.toList

/-- The options that the flags denote. -/
def options (c : CommandLine) (prototypes : Prototypes) : Options :=
  { stripComments := Flag.stripComments.isUsed c.uses
    compact := Flag.compact.isUsed c.uses
    keepDirectives := Flag.keepDirectives.isUsed c.uses
    stubPackage := c.word .stubPackage ""
    prototypes := prototypes
    jobs := c.jobs
    file := some c.input }

/-- The prototypes are those of the file that is named, none without one. -/
def HasPrototypes (c : CommandLine) (d : Directory) (prototypes : Prototypes) : Prop :=
  match c.file? .prototypes with
  | none => prototypes = {}
  | some name => ∃ source, d.read name = .ok source ∧ Prototypes.read source = .ok prototypes

/-- `u` is the conversion of the input under the options that the flags denote. -/
def Converts (c : CommandLine) (d : Directory) (u : ConvertedUnit) : Prop :=
  ∃ text prototypes, d.read c.input = .ok text ∧ c.HasPrototypes d prototypes ∧
    convert (c.options prototypes) text = .ok u

/-- What the command line asks for is done: the listing of the conversion `u` is in the file `out`
to which the path of the output leads, its declarations are in the file to which their path leads,
if there is one, and all other files are as they were. The file of the declarations is written last
and may be that of the listing. -/
structure IsDone (c : CommandLine) (d d' : Directory) (u : ConvertedUnit) (out : String)
    (stubs? : Option String) : Prop where
  converted : c.Converts d u
  output : d.locate c.output = .ok out
  stubs : (c.file? .stubs).mapM (d.write out u.text).locate = .ok stubs?
  listing : stubs? ≠ some out → d'.find? out = some u.text
  declarations : ∀ name ∈ stubs?, d'.find? name = some (u.goDeclarations (c.word .package "main"))
  others : ∀ name, name ≠ out → name ∉ stubs? → d'.find? name = d.find? name

/-- What the command line asks for is done as far as the listing: the declarations of the conversion
`u` cannot be written where their path leads, for the reason `e`. All files but that of the listing
are as they were. -/
structure IsHalfDone (c : CommandLine) (d d' : Directory) (u : ConvertedUnit) (out : String)
    (e : PathError) : Prop where
  converted : c.Converts d u
  output : d.locate c.output = .ok out
  stubs : ∃ path ∈ c.file? .stubs,
    (d.write out u.text).save path (u.goDeclarations (c.word .package "main")) = .error e
  listing : d'.find? out = some u.text
  others : ∀ name, name ≠ out → d'.find? name = d.find? name

end CommandLine

/-! ## Runs -/

/-- A run ends with zero when it is done, and when the command line asks for no conversion. -/
lemma Ending.eq_of_status_eq_zero {e : Ending} (h : e.status = 0) :
    e = .done ∨ ∃ asked, e = .usage asked := by
  cases e with
  | usage asked => exact .inr ⟨asked, rfl⟩
  | done => exact .inl rfl
  | rejected => exact absurd h Nat.one_ne_zero
  | failed => exact absurd h Nat.one_ne_zero
  | unreachable => exact absurd h Nat.one_ne_zero
  | outputUnnamed => exact absurd h Nat.one_ne_zero

namespace Directory

lemma save_eq_ok {d d' : Directory} {path text : String} (h : d.save path text = .ok d') :
    ∃ name, d.locate path = .ok name ∧ d' = d.write name text := by
  obtain ⟨name, hname, h⟩ := bind_eq_ok.mp h
  split at h
  · cases h
  · exact ⟨name, hname, (pure_eq_ok.mp h).symm⟩

end Directory

namespace Settings

variable {s : Settings} {d : Directory} {u : ConvertedUnit}

lemma readPrototypes_eq_ok {prototypes : Prototypes}
    (h : s.readPrototypes d = .ok prototypes) :
    s.prototypes = "" ∧ prototypes = {} ∨
      s.prototypes ≠ "" ∧ ∃ source, d.read s.prototypes = .ok source ∧
        Prototypes.read source = .ok prototypes := by
  unfold readPrototypes at h
  split at h
  · rename_i hempty
    exact .inl ⟨String.isEmpty_iff.mp hempty, (Except.ok.inj h).symm⟩
  · rename_i hnamed
    refine .inr ⟨mt String.isEmpty_iff.mpr hnamed, ?_⟩
    split at h
    · cases h
    · rename_i source hsource
      exact ⟨source, hsource, mapError_eq_ok.mp h⟩

lemma conversion_eq_ok (h : s.conversion d = .ok u) : ∃ text prototypes,
    d.read s.input = .ok text ∧ s.readPrototypes d = .ok prototypes ∧
      convert (s.options prototypes) text = .ok u := by
  unfold conversion at h
  split at h
  · cases h
  · rename_i text htext
    obtain ⟨prototypes, hprototypes, h⟩ := bind_eq_ok.mp h
    exact ⟨text, prototypes, htext, hprototypes, mapError_eq_ok.mp h⟩

/-- Without prototypes the run is not done. -/
lemma failsWith_readPrototypes (s : Settings) (d : Directory) :
    FailsWith (· ≠ .done) (s.readPrototypes d) := by
  unfold readPrototypes
  split
  · exact failsWith_ok _
  split
  · exact failsWith_error fun h => nomatch h
  · intro e he
    obtain ⟨f, -, rfl⟩ := mapError_eq_error.mp he
    cases f <;> exact fun h => nomatch h

/-- Without a conversion the run is not done. -/
lemma failsWith_conversion (s : Settings) (d : Directory) :
    FailsWith (· ≠ .done) (s.conversion d) := by
  unfold conversion
  split
  · exact failsWith_error fun h => nomatch h
  · refine (s.failsWith_readPrototypes d).bind fun prototypes _ e he => ?_
    obtain ⟨f, -, rfl⟩ := mapError_eq_error.mp he
    cases f <;> exact fun h => nomatch h

/-- How the writing of a conversion ends: nothing is written; or the listing, and the declarations
are not asked for, cannot be written, or are written as well. -/
lemma write_cases (s : Settings) (u : ConvertedUnit) (d : Directory) :
    ((s.write u d).ending ≠ .done ∧ (s.write u d).directory = d) ∨
      ∃ path out, s.output = some path ∧ d.locate path = .ok out ∧
        ((s.stubs = "" ∧ s.write u d = ⟨.done, d.write out u.text⟩) ∨
          (s.stubs ≠ "" ∧ ∃ e, (d.write out u.text).save s.stubs (u.goDeclarations s.package) =
            .error e ∧ s.write u d = ⟨.unreachable e, d.write out u.text⟩) ∨
          s.stubs ≠ "" ∧ ∃ name, (d.write out u.text).locate s.stubs = .ok name ∧
            s.write u d =
              ⟨.done, (d.write out u.text).write name (u.goDeclarations s.package)⟩) := by
  unfold write
  split
  · exact .inl ⟨fun h => (nomatch h), rfl⟩
  · rename_i path hpath
    cases hsave : d.save path u.text with
    | error e => exact .inl ⟨fun h => (nomatch h), rfl⟩
    | ok d' =>
      obtain ⟨out, hout, rfl⟩ := Directory.save_eq_ok hsave
      refine .inr ⟨path, out, hpath, hout, ?_⟩
      dsimp only
      unfold writeStubs
      split
      · rename_i hempty
        exact .inl ⟨String.isEmpty_iff.mp hempty, rfl⟩
      · rename_i hnamed
        have hnamed := mt String.isEmpty_iff.mpr hnamed
        cases hsave : (d.write out u.text).save s.stubs (u.goDeclarations s.package) with
        | error e => exact .inr (.inl ⟨hnamed, e, rfl, rfl⟩)
        | ok d' =>
          obtain ⟨name, hname, rfl⟩ := Directory.save_eq_ok hsave
          exact .inr (.inr ⟨hnamed, name, hname, rfl⟩)

end Settings

/-- How a run ends: without a change, or with the listing of the input written and then as the
writing of the declarations ends. -/
lemma run_cases (args : List String) (d : Directory) :
    ((run args d).ending ≠ .done ∧ (run args d).directory = d) ∨
      ∃ s u path out, Settings.read args = .ok s ∧ s.conversion d = .ok u ∧
        s.output = some path ∧ d.locate path = .ok out ∧
        ((s.stubs = "" ∧ run args d = ⟨.done, d.write out u.text⟩) ∨
          (s.stubs ≠ "" ∧ ∃ e, (d.write out u.text).save s.stubs (u.goDeclarations s.package) =
            .error e ∧ run args d = ⟨.unreachable e, d.write out u.text⟩) ∨
          s.stubs ≠ "" ∧ ∃ name, (d.write out u.text).locate s.stubs = .ok name ∧
            run args d =
              ⟨.done, (d.write out u.text).write name (u.goDeclarations s.package)⟩) := by
  unfold run
  cases hread : Settings.read args with
  | error e => exact .inl ⟨fun h => (nomatch h), rfl⟩
  | ok s =>
    dsimp only
    cases hconversion : s.conversion d with
    | error e => exact .inl ⟨s.failsWith_conversion d e hconversion, rfl⟩
    | ok u =>
      rcases s.write_cases u d with hnone | ⟨path, out, hwrite⟩
      · exact .inl hnone
      · exact .inr ⟨s, u, path, out, rfl, hconversion, hwrite⟩

namespace CommandLine

/-- The settings name the files that the flags name, and no file by an empty name. -/
lemma file?_eq (c : CommandLine) (f : Flag) : c.file? f =
    let name := (f.lastValue? c.uses).elim "" fun v => (Settings.value? v).getD ""
    if name = "" then none else some name := by
  unfold file? Settings.value?
  cases f.lastValue? c.uses with
  | none => rfl
  | some v => by_cases hmark : v = "--" <;> by_cases hempty : v = "" <;> simp [hmark, hempty]

lemma word_eq (c : CommandLine) (f : Flag) (unset : String) : c.word f unset =
    (f.lastValue? c.uses).elim unset fun v => (Settings.value? v).getD Settings.noValue := by
  unfold word Settings.value? Settings.noValue
  cases f.lastValue? c.uses with
  | none => rfl
  | some v => by_cases hmark : v = "--" <;> simp [hmark]

/-- The settings that the flags of a command line denote. -/
def settings (c : CommandLine) : Settings :=
  { Settings.ofUses c.uses with input := c.input, output := some c.output }

lemma options_settings (c : CommandLine) (prototypes : Prototypes) :
    c.settings.options prototypes = c.options prototypes := by
  rw [options, word_eq]
  rfl

lemma hasPrototypes_of_readPrototypes {c : CommandLine} {d : Directory} {prototypes : Prototypes}
    (h : c.settings.readPrototypes d = .ok prototypes) : c.HasPrototypes d prototypes := by
  have hfile : c.file? .prototypes =
      if c.settings.prototypes = "" then none else some c.settings.prototypes := c.file?_eq _
  unfold HasPrototypes
  rcases Settings.readPrototypes_eq_ok h with ⟨hnone, rfl⟩ | ⟨hnamed, hsource⟩
  · rw [hfile, if_pos hnone]
  · rw [hfile, if_neg hnamed]
    exact hsource

/-- What a command line asks for is done once the listing is written and, if a file is named for
them, the declarations after it. -/
lemma isDone_of_writes {c : CommandLine} {d : Directory} {u : ConvertedUnit} {out : String}
    {stubs? : Option String} (hconverted : c.Converts d u) (hout : d.locate c.output = .ok out)
    (hstubs : (c.file? .stubs).mapM (d.write out u.text).locate = .ok stubs?) :
    c.IsDone d (stubs?.elim (d.write out u.text) fun name =>
      (d.write out u.text).write name (u.goDeclarations (c.word .package "main"))) u out stubs? := by
  refine ⟨hconverted, hout, hstubs, ?_, ?_, ?_⟩
  · intro hne
    cases stubs? with
    | none => rw [Option.elim_none, Directory.find?_write, if_pos rfl]
    | some name =>
      have hname : out ≠ name := fun h => hne (congrArg some h.symm)
      rw [Option.elim_some, Directory.find?_write, if_neg hname, Directory.find?_write, if_pos rfl]
  · rintro name ⟨⟩
    rw [Option.elim_some, Directory.find?_write, if_pos rfl]
  · intro other hother hne
    cases stubs? with
    | none => rw [Option.elim_none, Directory.find?_write, if_neg hother]
    | some name =>
      have hname : other ≠ name := fun h => hne (congrArg some h.symm)
      rw [Option.elim_some, Directory.find?_write, if_neg hname, Directory.find?_write,
        if_neg hother]

end CommandLine

/-- A run that fails changes no file, unless all that it lacks is the declarations, which cannot be
written. For one that ends with zero all that the command line asks for is done, or it asks for no
conversion, and no file is changed. -/
theorem run_atomic (args : List String) (d : Directory) :
    ((run args d).ending.status ≠ 0 → (run args d).directory = d ∨
      ∃ c u out e, Says args c.uses [c.input, c.output] ∧ (run args d).ending = .unreachable e ∧
        CommandLine.IsHalfDone c d (run args d).directory u out e) ∧
    ((run args d).ending.status = 0 →
      ((∃ e, (run args d).ending = .usage e) ∧ (run args d).directory = d) ∨
      (run args d).ending = .done ∧ ∃ c u out stubs?, Says args c.uses [c.input, c.output] ∧
        CommandLine.IsDone c d (run args d).directory u out stubs?) := by
  rcases run_cases args d with ⟨hne, hsame⟩ |
    ⟨s, u, path, out, hread, hconversion, hpath, hout, hrun⟩
  · refine ⟨fun _ => .inl hsame, fun hzero => .inl ⟨?_, hsame⟩⟩
    exact (Ending.eq_of_status_eq_zero hzero).resolve_left hne
  obtain ⟨c, hsaid, rfl, rfl⟩ : ∃ c : CommandLine, Says args c.uses [c.input, c.output] ∧
      c.settings = s ∧ c.output = path := by
    obtain ⟨us, hsaid, hs⟩ := exists_says_of_read hread hpath
    exact ⟨⟨us, s.input, path⟩, hsaid, hs.symm, rfl⟩
  have hconverted : c.Converts d u := by
    obtain ⟨text, prototypes, htext, hprototypes, hconvert⟩ :=
      Settings.conversion_eq_ok hconversion
    rw [c.options_settings] at hconvert
    exact ⟨text, prototypes, htext, c.hasPrototypes_of_readPrototypes hprototypes, hconvert⟩
  have hstubs : c.file? .stubs =
      if c.settings.stubs = "" then none else some c.settings.stubs := c.file?_eq _
  have hpackage : c.settings.package = c.word .package "main" := (c.word_eq _ _).symm
  rw [hpackage] at hrun
  rcases hrun with ⟨hnone, hrun⟩ | ⟨hnamed, e, hsave, hrun⟩ | ⟨hnamed, name, hname, hrun⟩
  · rw [hrun]
    refine ⟨fun hfails => absurd rfl hfails, fun _ => .inr ⟨rfl, ?_⟩⟩
    rw [if_pos hnone] at hstubs
    exact ⟨c, u, out, none, hsaid,
      CommandLine.isDone_of_writes hconverted hout (option_mapM_eq_none.mpr hstubs)⟩
  · rw [hrun]
    refine ⟨fun _ => .inr ⟨c, u, out, e, hsaid, rfl, ?_⟩, fun hzero => absurd hzero Nat.one_ne_zero⟩
    rw [if_neg hnamed] at hstubs
    refine ⟨hconverted, hout, ⟨_, hstubs, hsave⟩, ?_, fun other hother => ?_⟩
    · rw [Directory.find?_write, if_pos rfl]
    · rw [Directory.find?_write, if_neg hother]
  · rw [hrun]
    refine ⟨fun hfails => absurd rfl hfails, fun _ => .inr ⟨rfl, ?_⟩⟩
    rw [if_neg hnamed] at hstubs
    exact ⟨c, u, out, some name, hsaid, CommandLine.isDone_of_writes hconverted hout
      (option_mapM_eq_some.mpr ⟨_, hstubs, hname⟩)⟩

/-- A run whose declarations cannot be read, and one with a group of flags, a name that is cut short
and flags behind the files. -/
theorem run_atomic_of_two :
    let d : Directory := { files := [
      ("f.s", String.join [
        "f: push rbp\n", "mov rbp, rsp\n", "mov rax, rdi\n", "leave\n", "ret\n"]),
      ("f.go", "package main\n\nfunc _f(x int) int\n"), ("g.go", "func _f(a, b int, c)\n")] }
    let refused := ["f.s", "out.s", "-p", "g.go"]
    let complete := ["-cs", "f.s", "out.s", "--proto=f.go", "--stubs", "h.go", "--package", "asm"]
    ((run refused d).ending.status ≠ 0 ∧ (run refused d).directory = d) ∧
      (run complete d).ending.status = 0 ∧
      ∃ c u out stubs?, Says complete c.uses [c.input, c.output] ∧
        CommandLine.IsDone c d (run complete d).directory u out stubs? := by
  intro d refused complete
  have hrefused : (run refused d).ending =
      .rejected "g.go: _f: ParseError: _f: Parameters without type: c" := by decide +kernel
  have hdone : (run complete d).ending = .done := by decide +kernel
  have hfails : (run refused d).ending.status ≠ 0 := by
    rw [hrefused]
    exact Nat.one_ne_zero
  have hzero : (run complete d).ending.status = 0 := by rw [hdone]; rfl
  refine ⟨⟨hfails, ?_⟩, hzero, ?_⟩
  · rcases (run_atomic refused d).1 hfails with hsame | ⟨c, u, out, e, -, hend, -⟩
    · exact hsame
    · exact nomatch hrefused.symm.trans hend
  · rcases (run_atomic complete d).2 hzero with ⟨⟨e, hend⟩, -⟩ | ⟨-, hcomplete⟩
    · exact nomatch hdone.symm.trans hend
    · exact hcomplete

/-- The folder of the file for the declarations is missing. The run fails, and the listing that was
not there before it is there. -/
theorem not_run_atomic :
    let d : Directory := { files := [
      ("f.s", String.join [
        "f: push rbp\n", "mov rbp, rsp\n", "mov rax, rdi\n", "leave\n", "ret\n"])] }
    let args := ["f.s", "out.s", "--stubs", "stubs/h.go"]
    (run args d).ending = .unreachable .missing ∧ (run args d).ending.status = 1 ∧
      d.find? "out.s" = none ∧ (run args d).directory.find? "out.s" =
        some (String.join ["// Code generated by c2plan9. DO NOT EDIT.\n",
          "//+build !noasm !appengine\n\n#include \"textflag.h\"\n\nTEXT ·_f(SB), $0-8\n",
          "\tMOVQ arg1+0(FP), DI\n",
          "\tBYTE $0x48; BYTE $0x89; BYTE $0xf8       // mov rax, rdi\n\tRET\n"]) := by
  decide +kernel

end AsmBridge
