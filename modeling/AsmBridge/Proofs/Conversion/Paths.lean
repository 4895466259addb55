import AsmBridge.Proofs.Abi.Entry
import AsmBridge.Proofs.Conversion.Lines
import Mathlib.Logic.Relation

/-!
# The register of the pool address along paths

Control runs through the lines of a converted function, and jumps lead from line to line. What a
line may do to the machine is bounded from above: a stub behind a call may change everything, and an
instruction of the body may change the stack pointer, the registers that `Access.ofInstruction`
reports as written, the vector registers and memory. The register of the pool is none that the body
uses (`SourceFunction.poolRegister_spec`), and each call is followed by a load of the register, so
that it holds the pool address wherever machine code of the body is reached
(`held_path`). Only the bytes of data directives are beyond such an account.
-/

namespace AsmBridge

/-! ## Effects of lines -/

/-- What an instruction of the target dialect may do to the machine before the next line runs. -/
def TargetInstruction.Effect (p : Placement) (s t : Machine) : TargetInstruction → Prop
  | .call _ _ => True
  | .ret => False
  | .movsd _ _ => t.gp = s.gp
  | .movups _ _ => t.gp = s.gp
  | .vmovdqu _ _ => t.gp = s.gp
  | .jump _ _ => t = s
  | .bare _ => t.gp = s.gp
  | i => i.step? p s = some t

/-- What an instruction of a body may do to the machine before the next line runs. -/
def Instruction.Effect (s t : Machine) (i : Instruction) : Prop :=
  ∀ a, Access.ofInstruction i = .ok a → ∀ n : Fin 16, n ≠ 4 →
    (∀ w ∈ a.writes, w.family ≠ .gp .w64 n) → t.gp n = s.gp n

/-- What a line may do to the machine before the next line runs. -/
def Line.Effect (p : Placement) (s t : Machine) : Line → Prop
  | .label _ => t = s
  | .directive _ => t = s
  | .data _ _ => True
  | .kept i _ _ => i.Effect s t
  | .native i => i.Effect p s t

/-- One step of control: to the next line, or from a jump to a label that it names. -/
inductive Step (p : Placement) (lines : List Line) : ℕ × Machine → ℕ × Machine → Prop
  | next {n : ℕ} {l : Line} {s t : Machine} (hl : lines[n]? = some l) (ht : l.Effect p s t) :
      Step p lines (n, s) (n + 1, t)
  | jump {n m : ℕ} {name label : String} {s : Machine}
      (hn : lines[n]? = some (.native (.jump name (targetLabel label))))
      (hm : lines[m]? = some (.label label)) : Step p lines (n, s) (m, s)

/-- Steps of control one after another, none of which runs bytes of a data directive. -/
def Steps (p : Placement) (lines : List Line) : ℕ × Machine → ℕ × Machine → Prop :=
  Relation.ReflTransGen fun a b => Step p lines a b ∧ ∀ l ∈ lines[a.1]?, l.isData = false

/-- One line more. -/
lemma Steps.next {p : Placement} {lines : List Line} {a : ℕ × Machine} {n : ℕ} {l : Line}
    {u w : Machine} (h : Steps p lines a (n, u)) (hl : lines[n]? = some l)
    (hdata : l.isData = false) (hw : l.Effect p u w) : Steps p lines a (n + 1, w) := by
  refine Relation.ReflTransGen.tail h ⟨.next hl hw, ?_⟩
  rw [hl]
  rintro l ⟨⟩
  exact hdata

/-- A jump more. -/
lemma Steps.jump {p : Placement} {lines : List Line} {a : ℕ × Machine} {n m : ℕ}
    {name label : String} {u : Machine} (h : Steps p lines a (n, u))
    (hn : lines[n]? = some (.native (.jump name (targetLabel label))))
    (hm : lines[m]? = some (.label label)) : Steps p lines a (m, u) := by
  refine Relation.ReflTransGen.tail h ⟨.jump hn hm, ?_⟩
  rw [hn]
  rintro l ⟨⟩
  rfl

/-- The instruction passes control to somewhere else, for good or for a while. -/
def TargetInstruction.isTransfer : TargetInstruction → Bool
  | .call _ _ => true
  | .jump _ _ => true
  | _ => false

/-! ## Loads behind calls -/

/-- Every call is followed by an instruction. -/
def CallsFollowedBy (load : TargetInstruction) (lines : List Line) : Prop :=
  ∀ n package stub, lines[n]? = some (.native (.call package stub)) →
    lines[n + 1]? = some (.native load)

lemma CallsFollowedBy.append {load : TargetInstruction} {lines lines' : List Line}
    (h : CallsFollowedBy load lines) (h' : CallsFollowedBy load lines') :
    CallsFollowedBy load (lines ++ lines') := by
  intro n package stub hn
  rcases Nat.lt_or_ge n lines.length with hlt | hge
  · rw [List.getElem?_append_left hlt] at hn
    have hnext := h n package stub hn
    have hlt' : n + 1 < lines.length := by
      by_contra hge
      rw [List.getElem?_eq_none (Nat.le_of_not_lt hge)] at hnext
      cases hnext
    rw [List.getElem?_append_left hlt']
    exact hnext
  · rw [List.getElem?_append_right hge] at hn
    rw [List.getElem?_append_right (Nat.le_succ_of_le hge), Nat.succ_sub hge]
    exact h' _ package stub hn

lemma CallsFollowedBy.flatten {load : TargetInstruction} {parts : List (List Line)}
    (h : ∀ lines ∈ parts, CallsFollowedBy load lines) : CallsFollowedBy load parts.flatten := by
  induction parts with
  | nil =>
    intro n package stub hn
    cases hn
  | cons lines rest ih =>
    rw [List.flatten_cons]
    exact (h lines List.mem_cons_self).append
      (ih fun lines' h' => h lines' (List.mem_cons_of_mem _ h'))

/-- Lines without a call. -/
lemma CallsFollowedBy.of_forall_ne {load : TargetInstruction} {lines : List Line}
    (h : ∀ package stub, Line.native (.call package stub) ∉ lines) :
    CallsFollowedBy load lines := by
  intro n package stub hn
  exact absurd (List.mem_of_getElem? hn) (h package stub)

/-- Instructions that keep control are no calls. -/
lemma call_notMem_native {is : List TargetInstruction} (h : ∀ t ∈ is, t.isTransfer = false)
    (package stub : String) : Line.native (.call package stub) ∉ is.map Line.native := by
  intro hmem
  obtain ⟨t, ht, heq⟩ := List.mem_map.mp hmem
  have htransfer := h t ht
  rw [Line.native.inj heq] at htransfer
  cases htransfer

/-! ## Paths -/

/-- A line in front of a body. -/
lemma native_of_lt {front : List TargetInstruction} {n : ℕ} (h : n < front.length)
    (body : List Line) : (front.map Line.native ++ body)[n]? = some (.native front[n]) := by
  rw [List.getElem?_append_left (by simpa using h), List.getElem?_map, List.getElem?_eq_getElem h]
  rfl

/-- The line leaves a register alone. -/
def Line.Spares (r : Fin 16) (l : Line) : Prop := ∀ p s t, l.Effect p s t → t.gp r = s.gp r

/-- Lines of a body that leave a register alone but for the loads of the pool address, one of which
stands behind every call. Nothing is said of the bytes of data directives. -/
structure IsAnchored (name : String) (r : Fin 16) (body : List Line) : Prop where
  calls : CallsFollowedBy (.leaq name (.gp .w64 r)) body
  spares : ∀ l ∈ body, l.isData = false → (∀ package stub, l ≠ .native (.call package stub)) →
    l ≠ .native (.leaq name (.gp .w64 r)) → l.Spares r

/-- The lines of a function whose last line before the body loads the pool address. -/
def anchoredLines (front : List TargetInstruction) (name : String) (r : Fin 16)
    (body : List Line) : List Line :=
  (front ++ [TargetInstruction.leaq name (.gp .w64 r)]).map Line.native ++ body

section Paths

variable {front : List TargetInstruction} {name : String} {r : Fin 16} {body : List Line}
  {p : Placement}

lemma anchoredLines_of_lt {n : ℕ} (h : n < front.length) :
    (anchoredLines front name r body)[n]? = some (.native front[n]) := by
  have hlt : n < (front ++ [TargetInstruction.leaq name (.gp .w64 r)]).length := by
    rw [List.length_append]
    omega
  rw [anchoredLines, native_of_lt hlt, List.getElem_append_left h]

lemma anchoredLines_length :
    (anchoredLines front name r body)[front.length]? =
      some (.native (.leaq name (.gp .w64 r))) := by
  rw [anchoredLines, List.getElem?_append_left (by simp), List.getElem?_map]
  simp

lemma anchoredLines_of_gt {n : ℕ} (h : front.length < n) :
    (anchoredLines front name r body)[n]? = body[n - (front.length + 1)]? := by
  have hge : ((front ++ [TargetInstruction.leaq name (.gp .w64 r)]).map Line.native).length ≤ n := by
    rw [List.length_map, List.length_append]
    exact h
  rw [anchoredLines, List.getElem?_append_right hge]
  simp

/-- At a point of control the register holds the pool address, or a load of it is ahead. -/
def Held (front : List TargetInstruction) (name : String) (r : Fin 16) (body : List Line)
    (p : Placement) (a : ℕ × Machine) : Prop :=
  a.1 < front.length ∨
    (anchoredLines front name r body)[a.1]? = some (.native (.leaq name (.gp .w64 r))) ∨
    a.2.gp r = p.datum name

/-- The load of the pool address. -/
lemma gp_of_load {s t : Machine}
    (h : (Line.native (.leaq name (.gp .w64 r))).Effect p s t) : t.gp r = p.datum name := by
  obtain rfl := Option.some.inj h
  simp

/-- The next line of a body holds the address, unless the line at hand is a call. -/
lemma held_next (hbody : IsAnchored name r body) {n : ℕ} {l : Line} {s t : Machine}
    (hl : (anchoredLines front name r body)[n]? = some l) (ht : l.Effect p s t)
    (hdata : l.isData = false) (h : Held front name r body p (n, s)) :
    Held front name r body p (n + 1, t) := by
  by_cases hload : l = .native (.leaq name (.gp .w64 r))
  · subst hload
    exact .inr (.inr (gp_of_load ht))
  rcases Nat.lt_trichotomy n front.length with hlt | heq | hgt
  · rcases Nat.lt_or_ge (n + 1) front.length with hlt' | hge
    · exact .inl hlt'
    · have hlen : n + 1 = front.length := by omega
      refine .inr (.inl ?_)
      rw [hlen]
      exact anchoredLines_length
  · rw [heq, anchoredLines_length] at hl
    exact absurd (Option.some.inj hl).symm hload
  · have hvalue : s.gp r = p.datum name := by
      rcases h with hlt | hline | hvalue
      · exact absurd hlt (Nat.not_lt_of_gt hgt)
      · rw [hl] at hline
        exact absurd (Option.some.inj hline) hload
      · exact hvalue
    rw [anchoredLines_of_gt hgt] at hl
    by_cases hcall : ∃ package stub, l = .native (.call package stub)
    · obtain ⟨package, stub, rfl⟩ := hcall
      have hnext := hbody.calls _ package stub hl
      refine .inr (.inl ?_)
      rw [anchoredLines_of_gt (Nat.lt_succ_of_lt hgt), ← hnext]
      congr 1
      omega
    · have hspares := hbody.spares l (List.mem_of_getElem? hl) hdata
        (fun package stub hc => hcall ⟨package, stub, hc⟩) hload
      exact .inr (.inr ((hspares p s t ht).trans hvalue))

/-- A step that runs no bytes of a data directive keeps the address in its register or a load of it
ahead. -/
lemma held_step (hfront : ∀ t ∈ front, t.isTransfer = false)
    (hbody : IsAnchored name r body) {a b : ℕ × Machine}
    (hstep : Step p (anchoredLines front name r body) a b)
    (hdata : ∀ l ∈ (anchoredLines front name r body)[a.1]?, l.isData = false)
    (h : Held front name r body p a) : Held front name r body p b := by
  cases hstep with
  | next hl ht => exact held_next hbody hl ht (hdata _ hl) h
  | @jump n m jump label s hn hm =>
    rcases h with hlt | hline | hvalue
    · rw [anchoredLines_of_lt hlt] at hn
      have hjump := hfront front[n] (List.getElem_mem hlt)
      rw [Line.native.inj (Option.some.inj hn)] at hjump
      cases hjump
    · rw [hn] at hline
      cases hline
    · exact .inr (.inr hvalue)

/-- Along every path through no bytes of a data directive the register holds the pool address or a
load of it is ahead. -/
lemma held_path (hfront : ∀ t ∈ front, t.isTransfer = false)
    (hbody : IsAnchored name r body) {a b : ℕ × Machine}
    (hpath : Steps p (anchoredLines front name r body) a b)
    (h : Held front name r body p a) : Held front name r body p b := by
  induction hpath with
  | refl => exact h
  | tail _ hstep ih => exact held_step hfront hbody hstep.1 hstep.2 ih

end Paths

/-! ## The lines of a function -/

/-- The candidates for the register of the pool are whole registers other than the stack pointer and
the frame pointer. -/
lemma exists_of_mem_poolCandidates :
    ∀ q ∈ poolCandidates, ∃ r : Fin 16, q = .gp .w64 r ∧ r ≠ 4 ∧ r ≠ 5 := by
  simp [poolCandidates, Register.rbx]

/-- No instruction of the body names a register of the family of the pool register, and none is
reported to use one without naming it. -/
lemma SourceFunction.poolRegister_spec {f : SourceFunction} {q : Register}
    (h : f.poolRegister = .ok q) {i : Instruction} (hi : i ∈ f.instructions) :
    ∃ a, Access.ofInstruction i = .ok a ∧
      ∀ w ∈ i.registers ++ a.reads ++ a.writes, w.family ≠ q := by
  obtain ⟨used, hused, h⟩ := bind_eq_ok.mp h
  have hfree : used.flatten.contains q = false := by
    split at h
    · rename_i q' hq'
      obtain rfl := pure_eq_ok.mp h
      simpa using List.find?_some hq'
    · cases h
  obtain ⟨u, hu, hfamilies⟩ := exists_of_mem_left (mapM_eq_ok.mp hused) hi
  obtain ⟨a, ha, hmap⟩ := bind_eq_ok.mp hfamilies
  refine ⟨a, ha, fun w hw hq => ?_⟩
  have hmem : q ∈ used.flatten := by
    refine List.mem_flatten.mpr ⟨u, hu, ?_⟩
    rw [← pure_eq_ok.mp hmap, ← hq]
    exact List.mem_map_of_mem hw
  rw [← List.contains_iff_mem, hfree] at hmem
  cases hmem

/-- The lines in place of a return restore the stack pointer of a framed function, store the result
and return. -/
lemma epilogue_eq_ok {s : Signature} {l : FrameLayout} {exit : List TargetInstruction}
    (h : epilogue s l = .ok exit) :
    ∃ store : List TargetInstruction,
      (∀ t ∈ store, ∃ shape name n, t = storeResult shape (.arg name n)) ∧
      exit = (if l.framed then [.movq (.at .rbp 0) (.reg .rsp)] else []) ++ store ++ [.ret] := by
  cases hresult : s.result with
  | none =>
    simp only [epilogue, hresult] at h
    exact ⟨[], by simp, (pure_eq_ok.mp h).symm⟩
  | some r =>
    simp only [epilogue, hresult] at h
    obtain ⟨shape, -, h⟩ := bind_eq_ok.mp h
    cases shape with
    | none => cases h
    | some shape =>
      refine ⟨[storeResult shape (.arg r.name s.resultOffset)], ?_, (pure_eq_ok.mp h).symm⟩
      intro t ht
      exact ⟨shape, r.name, s.resultOffset, List.mem_singleton.mp ht⟩

/-- Each line in place of a return is one of these. -/
lemma mem_epilogue {s : Signature} {l : FrameLayout} {exit : List TargetInstruction}
    (h : epilogue s l = .ok exit) {t : TargetInstruction} (ht : t ∈ exit) :
    t = .movq (.at .rbp 0) (.reg .rsp) ∨ (∃ shape name n, t = storeResult shape (.arg name n)) ∨
      t = .ret := by
  obtain ⟨store, hstore, hexit⟩ := epilogue_eq_ok h
  rw [hexit, List.mem_append, List.mem_append, List.mem_singleton] at ht
  rcases ht with (ht | ht) | ht
  · split at ht
    · exact .inl (List.mem_singleton.mp ht)
    · cases ht
  · exact .inr (.inl (hstore t ht))
  · exact .inr (.inr ht)

lemma epilogue_isTransfer {s : Signature} {l : FrameLayout} {exit : List TargetInstruction}
    (h : epilogue s l = .ok exit) {t : TargetInstruction} (ht : t ∈ exit) :
    t.isTransfer = false := by
  rcases mem_epilogue h ht with rfl | ⟨shape, name, n, rfl⟩ | rfl
  · rfl
  · cases shape <;> rfl
  · rfl

/-- The lines in place of a return change no register but the stack pointer. -/
lemma epilogue_spares {s : Signature} {l : FrameLayout} {exit : List TargetInstruction}
    (h : epilogue s l = .ok exit) {r : Fin 16} (hr : r ≠ 4) {t : TargetInstruction}
    (ht : t ∈ exit) : (Line.native t).Spares r := by
  intro p m m' heffect
  rcases mem_epilogue h ht with rfl | ⟨shape, name, n, rfl⟩ | rfl
  · obtain rfl := Option.some.inj heffect
    rw [Machine.setGp_gp, Function.update_of_ne hr]
  · cases shape with
    | integer =>
      obtain rfl := Option.some.inj heffect
      rw [Machine.setMem_gp]
    | float => exact congrFun heffect r
    | vector128 => exact congrFun heffect r
    | vector256 => exact congrFun heffect r
  · cases heffect

/-- Lines without a call that leave a register alone. -/
lemma isAnchored_of_spares {name : String} {r : Fin 16} {lines : List Line}
    (hcall : ∀ package stub, Line.native (.call package stub) ∉ lines)
    (h : ∀ l ∈ lines, l.isData = false → l.Spares r) : IsAnchored name r lines where
  calls := .of_forall_ne hcall
  spares l hl hdata _ _ := h l hl hdata

/-- A line that is no call and leaves the register alone, unless it is a data directive. -/
lemma isAnchored_singleton {name : String} {r : Fin 16} {l : Line}
    (hcall : ∀ package stub, l ≠ .native (.call package stub))
    (h : l.isData = false → l.Spares r) : IsAnchored name r [l] := by
  refine isAnchored_of_spares ?_ ?_
  · intro package stub hmem
    exact hcall package stub (List.mem_singleton.mp hmem).symm
  · intro l' hl
    obtain rfl := List.mem_singleton.mp hl
    exact h

/-- The lines of a record leave the register of the pool alone and load it behind a call, if the
record writes no register of its family. -/
lemma gives_isAnchored {pool : Pool} {r : Fin 16} {exit : List TargetInstruction} {b : BodyItem}
    {lines : List Line} (h : b.Gives pool (some (.gp .w64 r)) exit lines) (hr : r ≠ 4)
    (hexit : ∀ t ∈ exit, (Line.native t).Spares r ∧ t.isTransfer = false)
    (hfree : ∀ i ∈ b.instruction?, ∃ a, Access.ofInstruction i = .ok a ∧
      ∀ w ∈ a.writes, w.family ≠ .gp .w64 r) :
    IsAnchored pool.name r lines := by
  cases h with
  | label l =>
    refine isAnchored_singleton (by simp) fun _ p s t ht => ?_
    exact congrFun (congrArg Machine.gp ht) r
  | directive d =>
    refine isAnchored_singleton (by simp) fun _ p s t ht => ?_
    exact congrFun (congrArg Machine.gp ht) r
  | @data d bytes _ => exact isAnchored_singleton (by simp) fun hdata => nomatch hdata
  | @jump i name target _ _ =>
    refine isAnchored_singleton (by simp) fun _ p s t ht => ?_
    exact congrFun (congrArg Machine.gp ht) r
  | @call i package stub _ _ =>
    refine ⟨?_, ?_⟩
    · intro n package' stub' hn
      match n with
      | 0 => rfl
      | 1 => cases hn
      | _ + 2 => cases hn
    · intro l hl _ hcall hload
      rcases List.mem_cons.mp hl with rfl | hl
      · exact absurd rfl (hcall package stub)
      · exact absurd (List.mem_singleton.mp hl) hload
  | @clears i name _ _ =>
    refine isAnchored_singleton (by simp) fun _ p s t ht => ?_
    exact congrFun ht r
  | @kept i ops bytes _ _ _ =>
    refine isAnchored_singleton (by simp) fun _ p s t ht => ?_
    obtain ⟨a, ha, hwrites⟩ := hfree i rfl
    exact ht a ha r hr hwrites
  | epilogue e =>
    refine isAnchored_of_spares (call_notMem_native fun t ht => (hexit t ht).2) ?_
    intro l hl _
    obtain ⟨t, ht, rfl⟩ := List.mem_map.mp hl
    exact (hexit t ht).1

/-- Lines of records one after another leave the register alone and load it behind calls. -/
lemma isAnchored_flatten {name : String} {r : Fin 16} {parts : List (List Line)}
    (h : ∀ lines ∈ parts, IsAnchored name r lines) : IsAnchored name r parts.flatten where
  calls := .flatten fun lines hlines => (h lines hlines).calls
  spares l hl := by
    obtain ⟨lines, hlines, hl⟩ := List.mem_flatten.mp hl
    exact (h lines hlines).spares l hl

lemma loadArgument_isTransfer {x : ArgSlot} {t : TargetInstruction}
    (h : loadArgument? x = some t) : t.isTransfer = false := by
  obtain ⟨r, -, rfl⟩ := Option.map_eq_some_iff.mp h
  dsimp only
  split <;> rfl

lemma frameLines_isTransfer {slots : List ArgSlot} {l : FrameLayout} {t : TargetInstruction}
    (h : t ∈ frameLines slots l) : t.isTransfer = false := by
  have hspill : ∀ x ∈ slots, ∀ t ∈ spillArgument x, t.isTransfer = false := by
    intro x _ t ht
    rw [spillArgument] at ht
    split at ht
    · rcases List.mem_cons.mp ht with rfl | ht
      · rfl
      · rw [List.mem_singleton.mp ht]
        rfl
    · cases ht
  rcases List.mem_append.mp h with h | h
  · rcases List.mem_append.mp h with h | h
    · simp only [List.mem_cons, List.not_mem_nil, or_false] at h
      rcases h with rfl | rfl | rfl | rfl <;> rfl
    · obtain ⟨x, hx, ht⟩ := List.mem_flatMap.mp h
      exact hspill x hx t ht
  · rw [List.mem_singleton.mp h]
    rfl

/-- The lines before a body load the arguments, set up the frame if there is one, and load the pool
address. -/
lemma preamble_eq_ok {slots : List ArgSlot} {l : FrameLayout} {name : String}
    {q : Option Register} {entry : List TargetInstruction}
    (h : preamble slots l name q = .ok entry) :
    entry = slots.filterMap loadArgument? ++ (if l.framed then frameLines slots l else []) ++
      anchorLines name q := by
  cases hspills : (!l.framed && slots.any (·.register?.isNone)) with
  | true =>
    rw [preamble, hspills] at h
    cases h
  | false =>
    cases halign : (l.framed && l.align == 0) with
    | true =>
      rw [preamble, hspills, halign] at h
      cases h
    | false =>
      rw [preamble, hspills, halign] at h
      obtain ⟨anchor, hanchor, h⟩ := bind_eq_ok.mp h
      rw [← pure_eq_ok.mp h, mapM_loadPool_eq_ok hanchor]

/-- The lines before a body neither jump nor call. -/
lemma preamble_isTransfer {slots : List ArgSlot} {l : FrameLayout} {name : String}
    {q : Option Register} {entry : List TargetInstruction}
    (h : preamble slots l name q = .ok entry) {t : TargetInstruction} (ht : t ∈ entry) :
    t.isTransfer = false := by
  rw [preamble_eq_ok h, List.mem_append, List.mem_append] at ht
  rcases ht with (ht | ht) | ht
  · obtain ⟨x, -, hx⟩ := List.mem_filterMap.mp ht
    exact loadArgument_isTransfer hx
  · split at ht
    · exact frameLines_isTransfer ht
    · cases ht
  · obtain ⟨r, -, rfl⟩ := List.mem_map.mp ht
    rfl

/-- The lines before a body end in the load of the pool address, and those before it neither jump
nor call. -/
lemma preamble_eq_append {slots : List ArgSlot} {l : FrameLayout} {name : String} {q : Register}
    {entry : List TargetInstruction} (h : preamble slots l name (some q) = .ok entry) :
    ∃ front, entry = front ++ [.leaq name q] ∧ ∀ t ∈ front, t.isTransfer = false :=
  ⟨_, preamble_eq_ok h, fun _ ht =>
    preamble_isTransfer h (preamble_eq_ok h ▸ List.mem_append_left _ ht)⟩

end AsmBridge
