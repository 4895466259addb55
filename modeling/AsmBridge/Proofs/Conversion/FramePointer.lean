import AsmBridge.Proofs.Conversion.Paths
import AsmBridge.Proofs.Conversion.Unit
import AsmBridge.Proofs.Stack.Run

/-!
# The frame pointer along paths

The lines before a framed body leave the frame base in the frame pointer, and every return reloads
the stack pointer from the word there. What the conversion itself writes between the two spares the
frame pointer, and so does an instruction of the body that is not one to write it
(`Instruction.mayWrite`). Along every path of such lines the returns find the frame base
(`convert_restoresStack`).

Nothing refuses a body with an instruction that does write the frame pointer, and ordinary sources
have one: where two branches take the frame down and meet at one return, only the teardown in front
of the return is taken out (`not_restoresStack`).
-/

namespace AsmBridge

/-! ## Lines that run one after another -/

/-- The machine `t` may be where lines end that run one after another from `s` on. -/
def Effects (p : Placement) : List Line → Machine → Machine → Prop
  | [], s, t => t = s
  | l :: ls, s, t => ∃ u, l.Effect p s u ∧ Effects p ls u t

section Effects

variable {p : Placement}

lemma effects_append {ls ls' : List Line} {s t : Machine} :
    Effects p (ls ++ ls') s t ↔ ∃ u, Effects p ls s u ∧ Effects p ls' u t := by
  induction ls generalizing s with
  | nil => simp [Effects]
  | cons l ls ih =>
    simp only [List.cons_append, Effects, ih]
    constructor
    · rintro ⟨u, hu, v, hv, ht⟩
      exact ⟨v, ⟨u, hu, hv⟩, ht⟩
    · rintro ⟨v, ⟨u, hu, hv⟩, ht⟩
      exact ⟨u, hu, v, hv, ht⟩

/-- Lines that leave a register alone do so one after another. -/
lemma gp_of_effects {r : Fin 16} {ls : List Line} {s t : Machine} (h : ∀ l ∈ ls, l.Spares r)
    (ht : Effects p ls s t) : t.gp r = s.gp r := by
  induction ls generalizing s with
  | nil => rw [ht]
  | cons l ls ih =>
    obtain ⟨u, hu, ht⟩ := ht
    rw [ih (fun l' hl' => h l' (List.mem_cons_of_mem _ hl')) ht]
    exact h l List.mem_cons_self p s u hu

end Effects

/-! ## The lines before a body -/

section Entry

variable {p : Placement} {sig : Signature} {l : FrameLayout} {name : String} {q : Option Register}

/-- The loads of the arguments leave the stack pointer alone. -/
lemma loadArgument_spares {x : ArgSlot} (hx : x ∈ assignArguments sig) {i : TargetInstruction}
    (hi : loadArgument? x = some i) : (Line.native i).Spares 4 := by
  obtain ⟨r, hr, rfl⟩ := Option.map_eq_some_iff.mp hi
  obtain ⟨j, -, -, hplace⟩ := sig.exists_of_mem_assignArguments hx
  rw [Signature.register?_of_place hplace] at hr
  obtain ⟨hword, -, -, hsp, -⟩ := argumentRegister_spec hr
  intro p s t ht
  match r, hword with
  | .gp .w64 n, _ =>
    have hn : (4 : Fin 16) ≠ n := by
      rintro rfl
      exact hsp rfl
    obtain rfl := Option.some.inj ht
    rw [Machine.setGp_gp, Function.update_of_ne hn]
  | .xmm n, _ => exact congrFun ht 4

/-- The first lines of a frame put its base into the frame pointer. -/
lemma bp_of_frameBase {s t : Machine}
    (ht : Effects p ([.movq (.reg .rsp) (.reg .rbp), .addq l.baseOffset .rbp, .andq l.align .rbp,
      .movq (.reg .rsp) (.at .rbp 0)].map Line.native) s t) : t.bp = l.base s.sp := by
  obtain ⟨u₁, h₁, u₂, h₂, u₃, h₃, t, h₄, rfl⟩ := ht
  change TargetInstruction.step? p s _ = some u₁ at h₁
  change TargetInstruction.step? p u₁ _ = some u₂ at h₂
  change TargetInstruction.step? p u₂ _ = some u₃ at h₃
  change TargetInstruction.step? p u₃ _ = some _ at h₄
  have hrun := run_frameBase l p s
  simp only [TargetInstruction.run_cons, h₁, h₂, h₃, h₄, Option.bind_some,
    TargetInstruction.run_nil] at hrun
  rw [Option.some.inj hrun]
  simp [Machine.bp]

/-- The moves of the spilled arguments leave the frame pointer alone. -/
lemma spillArgument_spares {x : ArgSlot} {i : TargetInstruction} (hi : i ∈ spillArgument x) :
    (Line.native i).Spares 5 := by
  intro p s t ht
  rw [spillArgument] at hi
  split at hi
  · simp only [List.mem_cons, List.not_mem_nil, or_false] at hi
    rcases hi with rfl | rfl
    · obtain rfl := Option.some.inj ht
      simp
    · obtain rfl := Option.some.inj ht
      rw [Machine.setMem_gp]
  · cases hi

/-- So does the load of the pool address. -/
lemma anchorLines_spares (hq : ∀ r ∈ q, r ∈ poolCandidates) {i : TargetInstruction}
    (hi : i ∈ anchorLines name q) : (Line.native i).Spares 5 := by
  obtain ⟨r, hr, rfl⟩ := List.mem_map.mp hi
  obtain ⟨n, rfl, -, hn⟩ := exists_of_mem_poolCandidates r (hq r (by simpa using hr))
  intro p s t ht
  obtain rfl := Option.some.inj ht
  rw [Machine.setGp_gp, Function.update_of_ne hn.symm]

/-- The lines before a framed body leave the frame base in the frame pointer. -/
lemma bp_of_preamble {entry : List TargetInstruction}
    (h : preamble (assignArguments sig) l name q = .ok entry) (hf : l.framed = true)
    (hq : ∀ r ∈ q, r ∈ poolCandidates) {s t : Machine}
    (ht : Effects p (entry.map Line.native) s t) : t.bp = l.base s.sp := by
  rw [preamble_eq_ok h, if_pos hf, frameLines] at ht
  simp only [List.map_append, effects_append] at ht
  obtain ⟨y, ⟨u, hloads, x, ⟨v, hbase, hspills⟩, hlast⟩, hanchor⟩ := ht
  have hsp : u.sp = s.sp := by
    refine gp_of_effects (fun l hl => ?_) hloads
    obtain ⟨i, hi, rfl⟩ := List.mem_map.mp hl
    obtain ⟨a, ha, hai⟩ := List.mem_filterMap.mp hi
    exact loadArgument_spares ha hai
  have hx : x.bp = v.bp := by
    refine gp_of_effects (fun l hl => ?_) hspills
    obtain ⟨i, hi, rfl⟩ := List.mem_map.mp hl
    obtain ⟨a, -, hai⟩ := List.mem_flatMap.mp hi
    exact spillArgument_spares hai
  have hy : y.bp = x.bp := by
    obtain ⟨w, hw, rfl⟩ := hlast
    obtain rfl := Option.some.inj hw
    simp [Machine.bp]
  have ht : t.bp = y.bp := by
    refine gp_of_effects (fun l hl => ?_) hanchor
    obtain ⟨i, hi, rfl⟩ := List.mem_map.mp hl
    exact anchorLines_spares hq hi
  rw [ht, hy, hx, bp_of_frameBase hbase, hsp]

/-- The reload of the stack pointer from the word at the frame base. -/
def reloadStack : TargetInstruction := .movq (.at .rbp 0) (.reg .rsp)

/-- It is none of the lines before a body. -/
lemma reloadStack_notMem {slots : List ArgSlot} {entry : List TargetInstruction}
    (h : preamble slots l name q = .ok entry) : reloadStack ∉ entry := by
  intro hmem
  rw [preamble_eq_ok h, List.mem_append, List.mem_append] at hmem
  rcases hmem with (hmem | hmem) | hmem
  · obtain ⟨x, -, hx⟩ := List.mem_filterMap.mp hmem
    obtain ⟨r, -, hr⟩ := Option.map_eq_some_iff.mp hx
    dsimp only at hr
    split at hr <;> cases hr
  · split at hmem
    · simp only [frameLines, List.mem_append, List.mem_flatMap] at hmem
      rcases hmem with (hmem | ⟨x, -, hmem⟩) | hmem
      · simp [reloadStack] at hmem
      · rw [spillArgument] at hmem
        split at hmem <;> simp [reloadStack] at hmem
      · simp [reloadStack, Register.rbp] at hmem
    · cases hmem
  · obtain ⟨r, -, hr⟩ := List.mem_map.mp hmem
    cases hr

end Entry

/-! ## Paths -/

/-- What is asked of a line for the frame pointer to outlast it: a stub, the bytes of a data
directive and an instruction that may write the frame pointer leave it as it is. Of other lines
nothing is asked. -/
def Line.KeepsFrame (s t : Machine) : Line → Prop
  | .data _ _ => t.bp = s.bp
  | .kept i _ _ => i.mayWrite .rbp = true → t.bp = s.bp
  | .native (.call _ _) => t.bp = s.bp
  | _ => True

/-- Steps of control one after another, in each of which the line keeps the frame pointer. -/
def FrameSteps (p : Placement) (lines : List Line) : ℕ × Machine → ℕ × Machine → Prop :=
  Relation.ReflTransGen fun a b => Step p lines a b ∧ ∀ l ∈ lines[a.1]?, l.KeepsFrame a.2 b.2

section Paths

variable {p : Placement} {front : List TargetInstruction} {body : List Line} {s : Machine}
  {b : Word}

/-- At a point of control the lines in front of the body have run so far, or the frame pointer
holds the base. -/
def AtBase (p : Placement) (front : List TargetInstruction) (s : Machine) (b : Word)
    (a : ℕ × Machine) : Prop :=
  (a.1 ≤ front.length ∧ Effects p ((front.take a.1).map Line.native) s a.2) ∨
    (front.length ≤ a.1 ∧ a.2.bp = b)

/-- Behind the lines in front of the body the frame pointer holds the base. -/
lemma AtBase.bp_eq (hfront : ∀ t, Effects p (front.map Line.native) s t → t.bp = b)
    {a : ℕ × Machine} (h : AtBase p front s b a) (ha : front.length ≤ a.1) : a.2.bp = b := by
  rcases h with ⟨hle, heffects⟩ | ⟨-, hbp⟩
  · rw [List.take_of_length_le ha] at heffects
    exact hfront _ heffects
  · exact hbp

/-- A step in which the line keeps the frame pointer runs one more line in front of the body or
keeps the base in the frame pointer. -/
lemma atBase_step (htransfer : ∀ t ∈ front, t.isTransfer = false)
    (hfront : ∀ t, Effects p (front.map Line.native) s t → t.bp = b)
    (hbody : ∀ l ∈ body, ∀ u v, l.Effect p u v → l.KeepsFrame u v → v.bp = u.bp)
    {a a' : ℕ × Machine} (hstep : Step p (front.map Line.native ++ body) a a')
    (hkeep : ∀ l ∈ (front.map Line.native ++ body)[a.1]?, l.KeepsFrame a.2 a'.2)
    (h : AtBase p front s b a) : AtBase p front s b a' := by
  cases hstep with
  | @next n l u v hl hv =>
    rcases Nat.lt_or_ge n front.length with hlt | hge
    · obtain ⟨-, heffects⟩ | ⟨hge, -⟩ := h
      · rw [native_of_lt hlt] at hl
        obtain rfl := Option.some.inj hl
        refine .inl ⟨hlt, ?_⟩
        rw [List.take_succ_eq_append_getElem hlt, List.map_append, effects_append]
        exact ⟨u, heffects, v, hv, rfl⟩
      · exact absurd hlt (Nat.not_lt_of_ge hge)
    · have hbp := h.bp_eq hfront hge
      rw [List.getElem?_append_right (by simpa using hge)] at hl
      refine .inr ⟨Nat.le_succ_of_le hge, ?_⟩
      rw [hbody l (List.mem_of_getElem? hl) u v hv (hkeep l ?_)]
      · exact hbp
      · rw [List.getElem?_append_right (by simpa using hge)]
        exact hl
  | @jump n m jump label u hn hm =>
    -- Neither the jump nor the label is in front of the body.
    have hge : front.length ≤ n := by
      by_contra hlt
      have hlt := Nat.lt_of_not_le hlt
      rw [native_of_lt hlt] at hn
      have hjump := htransfer front[n] (List.getElem_mem hlt)
      rw [Line.native.inj (Option.some.inj hn)] at hjump
      cases hjump
    have hge' : front.length ≤ m := by
      by_contra hlt
      rw [native_of_lt (Nat.lt_of_not_le hlt)] at hm
      cases hm
    exact .inr ⟨hge', h.bp_eq hfront hge⟩

/-- So does every path of such lines. -/
lemma atBase_path (htransfer : ∀ t ∈ front, t.isTransfer = false)
    (hfront : ∀ t, Effects p (front.map Line.native) s t → t.bp = b)
    (hbody : ∀ l ∈ body, ∀ u v, l.Effect p u v → l.KeepsFrame u v → v.bp = u.bp)
    {a : ℕ × Machine} (hpath : FrameSteps p (front.map Line.native ++ body) (0, s) a) :
    AtBase p front s b a := by
  induction hpath with
  | refl => exact .inl ⟨Nat.zero_le _, rfl⟩
  | tail _ hstep ih => exact atBase_step htransfer hfront hbody hstep.1 hstep.2 ih

end Paths

/-! ## Functions -/

/-- An instruction that may not write a register is reported to write none of its family. -/
lemma Instruction.exists_of_mayWrite {i : Instruction} {r : Register} (h : i.mayWrite r = false) :
    ∃ a, Access.ofInstruction i = .ok a ∧ ∀ w ∈ a.writes, w.family ≠ r.family := by
  rw [mayWrite, Bool.or_eq_false_iff] at h
  obtain ⟨-, h⟩ := h
  cases ha : Access.ofInstruction i with
  | error e =>
    rw [ha] at h
    cases h
  | ok a =>
    rw [ha] at h
    exact ⟨a, rfl, by simpa using h⟩

/-- A line of a body that keeps the frame pointer leaves it alone. -/
lemma bp_of_gives {pool : Pool} {q : Option Register} {exit : List TargetInstruction}
    {e : BodyItem} {lines : List Line} (h : e.Gives pool q exit lines)
    (hq : ∀ r ∈ q, r ∈ poolCandidates) (hexit : ∀ i ∈ exit, (Line.native i).Spares 5)
    {p : Placement} {l : Line} (hl : l ∈ lines) {s t : Machine} (ht : l.Effect p s t)
    (hkeep : l.KeepsFrame s t) : t.bp = s.bp := by
  cases h with
  | label | directive | jump =>
    obtain rfl := List.mem_singleton.mp hl
    exact congrArg Machine.bp ht
  | data =>
    obtain rfl := List.mem_singleton.mp hl
    exact hkeep
  | @call i package stub _ _ =>
    rcases List.mem_cons.mp hl with rfl | hl
    · exact hkeep
    · obtain ⟨i, hi, rfl⟩ := List.mem_map.mp hl
      exact anchorLines_spares hq hi p s t ht
  | clears =>
    obtain rfl := List.mem_singleton.mp hl
    exact congrFun ht 5
  | @kept i ops bytes _ _ _ =>
    obtain rfl := List.mem_singleton.mp hl
    cases hwrite : i.mayWrite .rbp with
    | true => exact hkeep hwrite
    | false =>
      obtain ⟨a, ha, hwrites⟩ := Instruction.exists_of_mayWrite hwrite
      exact ht a ha 5 (by decide) hwrites
  | epilogue e =>
    obtain ⟨i, hi, rfl⟩ := List.mem_map.mp hl
    exact hexit i hi p s t ht

/-- The lines of a framed function, whose returns restore the stack pointer. -/
structure RestoresStack (pool : Pool) (f : ConvertedFunction) (lines : List Line) : Prop where
  items : lines.map Line.item = f.items
  /-- The lines before the body are followed by those of its records, and each return begins with
  the reload. -/
  parts : ∃ q entry exit parts, lines = entry.map Line.native ++ parts.flatten ∧
    preamble (assignArguments f.signature) f.layout pool.name q = .ok entry ∧
    List.Forall₂ (BodyItem.Gives pool q exit) f.source.body parts ∧
    ∀ e, .epilogue e ∈ f.source.body → exit.head? = some reloadStack
  /-- Wherever a path reaches a reload, the frame pointer holds the frame base that the lines before
  the body computed, provided that every line on the way keeps it. -/
  base : ∀ p s n t, FrameSteps p lines (0, s) (n, t) →
    lines[n]? = some (.native reloadStack) → t.bp = f.layout.base s.sp
  /-- The reload then ends with the stack pointer that the function was entered with, if the word at
  the base is still what the lines before the body stored there. -/
  stack : ∀ p s n t t', FrameSteps p lines (0, s) (n, t) →
    lines[n]? = some (.native reloadStack) → t.mem.load (f.layout.base s.sp) = s.sp →
      reloadStack.Effect p t t' → t'.sp = s.sp

/-- The reload takes the stack pointer from the word at the frame base. -/
lemma sp_of_reloadStack {p : Placement} {s t : Machine} (h : reloadStack.Effect p s t) :
    t.sp = s.mem.load s.bp := by
  obtain rfl := Option.some.inj h
  simp [Machine.sp, Machine.bp]

/-- Wherever a path through the lines of a framed function reaches a reload, the frame pointer holds
the frame base, if every line on the way keeps it. -/
lemma bp_of_path {pool : Pool} {sig : Signature} {layout : FrameLayout} {q : Option Register}
    {entry exit : List TargetInstruction} {body : List BodyItem} {parts : List (List Line)}
    (hentry : preamble (assignArguments sig) layout pool.name q = .ok entry)
    (hf : layout.framed = true) (hq : ∀ r ∈ q, r ∈ poolCandidates)
    (hexit : ∀ i ∈ exit, (Line.native i).Spares 5)
    (hparts : List.Forall₂ (BodyItem.Gives pool q exit) body parts) {p : Placement}
    {s t : Machine} {n : ℕ}
    (hpath : FrameSteps p (entry.map Line.native ++ parts.flatten) (0, s) (n, t))
    (hreload : (entry.map Line.native ++ parts.flatten)[n]? = some (.native reloadStack)) :
    t.bp = layout.base s.sp := by
  have hfront : ∀ t, Effects p (entry.map Line.native) s t → t.bp = layout.base s.sp :=
    fun t ht => bp_of_preamble hentry hf hq ht
  refine (atBase_path (fun t ht => preamble_isTransfer hentry ht) hfront ?_ hpath).bp_eq hfront ?_
  · intro l hl u v hv hkeep
    obtain ⟨lines, hlines, hl⟩ := List.mem_flatten.mp hl
    obtain ⟨e, -, hgives⟩ := exists_of_mem_right hparts hlines
    exact bp_of_gives hgives hq hexit hl hv hkeep
  · -- The reload is none of the lines before the body.
    by_contra hlt
    have hlt : n < entry.length := Nat.lt_of_not_le hlt
    rw [native_of_lt hlt] at hreload
    have hmem : entry[n] ∈ entry := List.getElem_mem hlt
    rw [Line.native.inj (Option.some.inj hreload)] at hmem
    exact reloadStack_notMem hentry hmem

/-- The lines of a framed function restore the stack pointer. -/
lemma restoresStack_of_convertFunction {c : UnitContext} {f : ConvertedFunction}
    (h : convertFunction c f.source = .ok (.ok f)) (hf : f.layout.framed = true) :
    ∃ lines, RestoresStack c.pool f lines := by
  obtain ⟨-, q, entry, exit, parts, hregister, hentry, hexit, hparts, hitems⟩ :=
    exists_lines_of_convertFunction h
  have hq : ∀ r ∈ q, r ∈ poolCandidates := fun r hr =>
    mem_poolCandidates (poolRegister_eq_ok hregister r hr)
  have hspares : ∀ i ∈ exit, (Line.native i).Spares 5 := by
    intro i hi
    rcases hexit with ⟨-, rfl⟩ | hexit
    · cases hi
    · exact epilogue_spares hexit (by decide) hi
  have hbase := fun p s n t => @bp_of_path c.pool f.signature f.layout q entry exit f.source.body
    parts hentry hf hq hspares hparts p s t n
  refine ⟨_, hitems, ⟨q, entry, exit, parts, rfl, hentry, hparts, ?_⟩, hbase, ?_⟩
  · intro e he
    rcases hexit with ⟨hreturns, -⟩ | hexit
    · rw [SourceFunction.returns, List.countP_eq_zero] at hreturns
      exact absurd rfl (hreturns _ he)
    · obtain ⟨store, -, rfl⟩ := epilogue_eq_ok hexit
      rw [if_pos hf]
      rfl
  · intro p s n t t' hpath hreload hload ht'
    rw [sp_of_reloadStack ht', hbase p s n t hpath hreload, hload]

/-- In a converted unit the returns of every framed function find the frame base in the frame
pointer, and reload the stack pointer from it, along every path of lines that keep the frame
pointer. -/
theorem convert_restoresStack {o : Options} {text : String} {u : ConvertedUnit}
    (h : convert o text = .ok u) {f : ConvertedFunction} (hf : f ∈ u.functions)
    (hframed : f.layout.framed = true) :
    ∃ lines, RestoresStack u.pool f lines := by
  obtain ⟨functions, x, -, -, -, c, hpool, hfs⟩ := convert_eq_ok h
  obtain ⟨f', -, -, -, hconvert⟩ := exists_of_mem_right hfs hf
  rw [← hpool]
  exact restoresStack_of_convertFunction hconvert hframed

/-- A function that saves a register, calls a helper on one of two ways and returns from both. -/
theorem convert_restoresStack_of_branch :
    let text := String.join [
      "f: push rbp\n", "mov rbp, rsp\n", "push rbx\n", "test rdi, rdi\n", "je .L1\n",
      "pop rbx\n", "pop rbp\n", "ret\n", ".L1: call memcpy\n", "pop rbx\n", "pop rbp\n",
      "ret\n"]
    ∃ u, convert {} text = .ok u ∧ ∃ f ∈ u.functions, f.layout.framed = true ∧
      ∃ lines, RestoresStack u.pool f lines := by
  intro text
  obtain ⟨u, hu, f, hf, hframed⟩ : ∃ u, convert {} text = .ok u ∧
      ∃ f ∈ u.functions, f.layout.framed = true := exists_ok_of_any (by decide +kernel)
  exact ⟨u, hu, f, hf, hframed, convert_restoresStack hu hf hframed⟩

/-- A function in which two branches take down the frame and meet at one return. The pop on one of
them stays in the body, where it finds the stack pointer of the caller at the frame base. The return
then takes that for the frame base and reloads the stack pointer from it. -/
theorem not_restoresStack :
    let text := String.join [
      "f: push rbp\n", "mov rbp, rsp\n", "test rdi, rdi\n", "je .L1\n", "pop rbp\n",
      "jmp .L2\n", ".L1: pop rbp\n", ".L2: ret\n"]
    let pop : Instruction :=
      { mnemonic := "pop", operands := [.reg .rbp], line := some 5, after := some "f",
        text := "pop rbp", sect := some ".text" }
    ∃ u, convert {} text = .ok u ∧ ∃ f ∈ u.functions, f.layout.framed = true ∧
      pop ∈ f.source.instructions ∧ ∃ lines, lines.map Line.item = f.items ∧
        ∃ (p : Placement) (s v t : Machine) (m n : ℕ), Steps p lines (0, s) (m, v) ∧
          lines[m]? = some (.kept pop [.reg .rbp] [0x5d]) ∧ t.bp = v.mem.load v.sp ∧
          Steps p lines (m, v) (n, t) ∧ lines[n]? = some (.native reloadStack) ∧
          t.bp ≠ f.layout.base s.sp := by
  intro text pop
  let test : Instruction :=
    { mnemonic := "test", operands := [.reg .rdi, .reg .rdi], text := "test rdi, rdi" }
  obtain ⟨u, hu, f, hf, hframed, hbase, hpop, hitems⟩ : ∃ u, convert {} text = .ok u ∧
      ∃ f ∈ u.functions, f.layout.framed = true ∧ f.layout.base 4096 = 4112 ∧
        pop ∈ f.source.instructions ∧ f.items = [
          .native (.movq (.arg "arg1" 0) (.reg .rdi)), .native (.movq (.reg .rsp) (.reg .rbp)),
          .native (.addq 16 .rbp), .native (.andq 16 .rbp),
          .native (.movq (.reg .rsp) (.at .rbp 0)), .native (.movq (.reg .rbp) (.reg .rsp)),
          .code [0x48, 0x85, 0xff] (some "test rdi, rdi"), .native (.jump "JEQ" "L1"),
          .code [0x5d] (some "pop rbp"), .native (.jump "JMP" "L2"), .label ".L1", .label ".L2",
          .native reloadStack, .native .ret] := exists_ok_of_any (by decide +kernel)
  let p : Placement := { args := 0, datum := fun _ => 0 }
  let s : Machine := { gp := fun _ => 4096, vec := fun _ => 0, mem := fun _ => 0 }
  let s₁ := s.setGp 7 (s.mem.load (p.slot s.sp 0))
  let s₄ := ((s₁.setGp 5 4096).setGp 5 4112).setGp 5 4112
  let v := (s₄.setMem 4112 4096).setGp 4 4112
  let t := (v.setGp 5 (v.mem.load v.sp)).setGp 4 (v.sp + 8)
  let lines : List Line := [
    .native (.movq (.arg "arg1" 0) (.reg .rdi)), .native (.movq (.reg .rsp) (.reg .rbp)),
    .native (.addq 16 .rbp), .native (.andq 16 .rbp), .native (.movq (.reg .rsp) (.at .rbp 0)),
    .native (.movq (.reg .rbp) (.reg .rsp)), .kept test test.operands [0x48, 0x85, 0xff],
    .native (.jump "JEQ" "L1"), .kept pop [.reg .rbp] [0x5d], .native (.jump "JMP" "L2"),
    .label ".L1", .label ".L2", .native reloadStack, .native .ret]
  have hround : (4112 : Word) &&& BitVec.ofInt 64 (-16) = 4112 := by decide
  have hadded : Steps p lines (0, s) (3, (s₁.setGp 5 4096).setGp 5 4112) := by
    have hloaded : Steps p lines (0, s) (1, s₁) := Steps.next .refl rfl rfl rfl
    exact (hloaded.next (w := s₁.setGp 5 4096) rfl rfl rfl).next rfl rfl rfl
  have hrounded : Steps p lines (0, s) (4, s₄) :=
    hadded.next rfl rfl (congrArg (fun w => some (Machine.setGp _ 5 w)) hround)
  have hentry : Steps p lines (0, s) (6, v) :=
    (hrounded.next (w := s₄.setMem 4112 4096) rfl rfl rfl).next rfl rfl rfl
  have hbody : Steps p lines (0, s) (8, v) :=
    (hentry.next (w := v) rfl rfl fun _ _ _ _ _ => rfl).next rfl rfl rfl
  have hload : v.mem.load v.sp = 4096 := Memory.load_store _ _ _
  -- The pop writes the frame pointer, so that nothing is said of it.
  have haccess : Access.ofInstruction pop = .ok { writes := [.rbp] } := by decide +kernel
  have hpopped : pop.Effect v t := by
    intro a ha r hr hwrites
    obtain rfl := Except.ok.inj (haccess.symm.trans ha)
    have hne : r ≠ 5 := by
      rintro rfl
      exact hwrites .rbp List.mem_cons_self rfl
    simp [t, hr, hne]
  have hjump : Steps p lines (8, v) (11, t) :=
    @Steps.jump p lines _ 9 11 "JMP" ".L2" t (Steps.next .refl rfl rfl hpopped) rfl rfl
  have hpath : Steps p lines (8, v) (12, t) := hjump.next rfl rfl rfl
  refine ⟨u, hu, f, hf, hframed, hpop, lines, ?_, p, s, v, t, 8, 12, hbody, rfl, rfl, hpath, rfl,
    ?_⟩
  · rw [hitems]
    rfl
  · rw [show t.bp = 4096 from hload, show s.sp = 4096 from rfl, hbase]
    decide

end AsmBridge
