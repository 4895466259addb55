import AsmBridge.Proofs.Conversion.Paths
import AsmBridge.Proofs.Conversion.Unit

/-!
# Jumps and calls

A converted function jumps where its source does and calls nothing but helpers. Its items are those
before the body and then those of each record of the body, in order; a label becomes a label, a jump
a jump to the label that it names, which is one of the function, and a call the call of a helper
that is allowed (`BodyItem.Transfers`). So a function with another target is in no listing.

A label is written without the points at its front. Two labels of a function can come to be written
alike, and then a jump to one of them may arrive at the other: a label that a jump names stands once
in the listing of the function if it is the only one that is written so, and only then
(`KeepsTransfers.once`). `not_transfers_once` shows a unit in which it stands twice. A label that
stands between the instructions that set up the frame is one of the body, and comes behind all lines
before the body.
-/

namespace AsmBridge

/-- The item is a label, a jump or a call. -/
def Item.isTransfer : Item → Bool
  | .label _ => true
  | .native t => t.isTransfer
  | _ => false

/-- The name of a label as it is written. -/
def Item.labelName? : Item → Option String
  | .label name => some (targetLabel name)
  | _ => none

/-- The items in place of a record of the body of a function, in which the helpers may be called. -/
inductive BodyItem.Transfers (allowed : List Helper) (package : String) (f : SourceFunction) :
    BodyItem → List Item → Prop
  | label (l : Label) : Transfers allowed package f (.label l) [.label l.name]
  | jump {i : Instruction} {name target : String} (hname : i.jumpName? = some name)
      (htarget : i.target? = some target) (hmem : target ∈ f.labels) :
      Transfers allowed package f (.instruction i) [.native (.jump name (targetLabel target))]
  /-- The call may be followed by the load of the pool address. -/
  | call {i : Instruction} {symbol : String} {h : Helper} {load : List Item}
      (hjump : i.jumpName? = none) (hcall : i.isCall = true) (htarget : i.target? = some symbol)
      (hmem : h ∈ allowed) (hname : h.name = targetName symbol f.isSegmented)
      (hload : ∀ item ∈ load, item.isTransfer = false) :
      Transfers allowed package f (.instruction i) (.native (.call package h.stub) :: load)
  | other {b : BodyItem} {items : List Item} (hlabel : b.label? = none)
      (hinstruction : ∀ i ∈ b.instruction?, i.jumpName? = none ∧ i.isCall = false)
      (hitems : ∀ item ∈ items, item.isTransfer = false) : Transfers allowed package f b items

/-- The listing of a converted function keeps its jumps, its calls and its labels. -/
structure KeepsTransfers (o : Options) (g : ConvertedFunction) (block : List String) : Prop where
  /-- The listing shows the items, each by its lines. -/
  shown : ∃ lines, renderItems o.style g.items = .ok lines ∧
    block = "" :: blockHead g.symbol g.layout.size g.signature.argBytes :: lines
  /-- The items are those before the body, without jumps and calls, and those of its records. -/
  items : ∃ entry parts, g.items = entry ++ parts.flatten ∧
    (∀ item ∈ entry, item.isTransfer = false) ∧
    List.Forall₂ (BodyItem.Transfers (o.allowedCalls.getD Helpers.standard) o.stubPackage g.source)
      g.source.body parts
  labels : g.items.filterMap Item.labelName? = g.source.labels.map targetLabel
  /-- The label that a jump names stands once in the listing if no other is written like it. -/
  once : ∀ i ∈ g.source.instructions, i.jumpName?.isSome = true → ∀ target,
    i.target? = some target →
      ((g.items.filterMap Item.labelName?).count (targetLabel target) = 1 ↔
        (g.source.labels.filter fun l => targetLabel l == targetLabel target) = [target])

/-! ## Helpers -/

/-- A helper of a list with one more is this one or one of the list. -/
lemma Helpers.mem_insertInto {h g : Helper} {hs : List Helper} (hg : g ∈ insertInto h hs) :
    g = h ∨ g ∈ hs := by
  induction hs with
  | nil => exact .inl (List.mem_singleton.mp hg)
  | cons k rest ih =>
    rw [insertInto] at hg
    split at hg
    · rcases List.mem_cons.mp hg with rfl | hg
      · exact .inl rfl
      · exact .inr (List.mem_cons_of_mem _ hg)
    · rcases List.mem_cons.mp hg with rfl | hg
      · exact .inr List.mem_cons_self
      · exact (ih hg).imp_right (List.mem_cons_of_mem _)

/-- The helpers of a unit are those it allows. -/
lemma Helpers.mem_ofList {allowed : Option (List Helper)} {package : String} {h : Helper}
    (hh : h ∈ (ofList allowed package).allowed) : h ∈ allowed.getD standard := by
  have hfold : ∀ (more acc : List Helper),
      h ∈ more.foldl (fun hs h => insertInto h hs) acc → h ∈ acc ∨ h ∈ more := by
    intro more
    induction more with
    | nil => exact fun acc hacc => .inl hacc
    | cons k rest ih =>
      intro acc hacc
      rcases ih _ hacc with hacc | hrest
      · refine (mem_insertInto hacc).symm.imp_right fun heq => ?_
        rw [heq]
        exact List.mem_cons_self
      · exact .inr (List.mem_cons_of_mem _ hrest)
  exact (hfold _ _ hh).resolve_left List.not_mem_nil

/-! ## Records -/

section Records

variable {c : UnitContext} {f : SourceFunction}

/-- Instructions that are neither jumps nor calls give items that are neither. -/
lemma isTransfer_map_native {is : List TargetInstruction}
    (h : ∀ t ∈ is, t.isTransfer = false) : ∀ item ∈ is.map Item.native, item.isTransfer = false := by
  intro item hitem
  obtain ⟨t, ht, rfl⟩ := List.mem_map.mp hitem
  exact h t ht

/-- What takes the place of a record jumps and calls where the record does. -/
lemma transfers_of_becomes {allowed : List Helper} {r : Option Register}
    {exit : List TargetInstruction} {b : BodyItem} {items : List Item}
    (hallowed : ∀ h ∈ c.helpers.allowed, h ∈ allowed)
    (hexit : ∀ t ∈ exit, t.isTransfer = false)
    (h : b.Becomes c f r (exit.map .native) items) :
    b.Transfers allowed c.helpers.package f items := by
  cases h with
  | label l => exact .label l
  | directive d =>
    exact .other rfl (by rintro i ⟨⟩) (List.forall_mem_singleton.mpr rfl)
  | data _ => exact .other rfl (by rintro i ⟨⟩) (List.forall_mem_singleton.mpr rfl)
  | jump hname htarget hmem => exact .jump hname htarget hmem
  | call hjump hcall htarget hmem hname =>
    refine .call hjump hcall htarget (hallowed _ hmem) hname (isTransfer_map_native fun t ht => ?_)
    obtain ⟨q, -, rfl⟩ := List.mem_map.mp ht
    rfl
  | clears hjump hcall _ =>
    refine .other rfl ?_ (List.forall_mem_singleton.mpr rfl)
    rintro j ⟨⟩
    exact ⟨hjump, hcall⟩
  | code hjump hcall _ _ _ =>
    refine .other rfl ?_ (List.forall_mem_singleton.mpr rfl)
    rintro j ⟨⟩
    exact ⟨hjump, hcall⟩
  | epilogue e => exact .other rfl (by rintro i ⟨⟩) (isTransfer_map_native hexit)

/-! ## Labels -/

/-- What is no label, jump or call is no label. -/
lemma labelName?_of_isTransfer {item : Item} (h : item.isTransfer = false) :
    item.labelName? = none := by
  cases item with
  | label name => cases h
  | _ => rfl

/-- The labels among the items of a body are those of the body. -/
lemma labels_flatten {allowed : List Helper} {package : String} {body : List BodyItem}
    {parts : List (List Item)}
    (h : List.Forall₂ (BodyItem.Transfers allowed package f) body parts) :
    parts.flatten.filterMap Item.labelName? =
      (body.filterMap fun b => b.label?.map (·.name)).map targetLabel := by
  have hnone : ∀ items : List Item, (∀ item ∈ items, item.isTransfer = false) →
      items.filterMap Item.labelName? = [] := fun items hitems =>
    List.filterMap_eq_nil_iff.mpr fun item hitem => labelName?_of_isTransfer (hitems item hitem)
  induction h with
  | nil => rfl
  | cons hb _ ih =>
    rw [List.flatten_cons, List.filterMap_append, ih]
    cases hb with
    | label l => rfl
    | jump => rfl
    | call _ _ _ _ _ hload => rw [List.filterMap_cons_none rfl, hnone _ hload]; rfl
    | other hlabel _ hitems =>
      rw [hnone _ hitems, List.filterMap_cons_none (by rw [hlabel]; rfl)]
      rfl

end Records

/-- A name that occurs is the only one of its class if the class is counted once. -/
lemma count_map_eq_one_iff {labels : List String} {target : String} (h : target ∈ labels) :
    (labels.map targetLabel).count (targetLabel target) = 1 ↔
      (labels.filter fun l => targetLabel l == targetLabel target) = [target] := by
  have hmem : target ∈ labels.filter fun l => targetLabel l == targetLabel target := by
    rw [List.mem_filter]
    exact ⟨h, beq_self_eq_true _⟩
  have hcount : (labels.map targetLabel).count (targetLabel target) =
      (labels.filter fun l => targetLabel l == targetLabel target).length := by
    rw [List.count, List.countP_map, List.countP_eq_length_filter]
    rfl
  rw [hcount]
  constructor
  · intro hone
    obtain ⟨l, hl⟩ := List.length_eq_one_iff.mp hone
    rw [hl] at hmem ⊢
    rw [List.mem_singleton.mp hmem]
  · intro heq
    rw [heq]
    rfl

/-- A converted function keeps its jumps, its calls and its labels. -/
lemma keepsTransfers_of_convertFunction {o : Options} {x : DataIndex}
    {functions : List SourceFunction} {g : ConvertedFunction} {block : List String}
    (h : convertFunction (unitContext o x functions) g.source = .ok (.ok g))
    (hblock : renderFunction o.style g = .ok block) : KeepsTransfers o g block := by
  obtain ⟨-, p, -, hbody⟩ := convertFunction_eq_ok_iff.mp h
  obtain ⟨entry, exit, parts, hentry, hexit, hparts, hg⟩ := convertBody_eq_ok hbody
  have heq : g.items = entry.map .native ++ parts.flatten := congrArg ConvertedFunction.items hg
  have hexit' : ∀ t ∈ exit, t.isTransfer = false := by
    rcases hexit with ⟨-, rfl⟩ | hexit
    · exact fun t ht => (nomatch ht)
    · exact fun t ht => epilogue_isTransfer hexit ht
  have htransfers : List.Forall₂
      (BodyItem.Transfers (o.allowedCalls.getD Helpers.standard) o.stubPackage g.source)
      g.source.body parts :=
    hparts.imp fun b part hpart =>
      transfers_of_becomes (fun h hh => Helpers.mem_ofList hh) hexit' hpart
  have hentry' : ∀ item ∈ entry.map Item.native, item.isTransfer = false :=
    isTransfer_map_native fun t ht => preamble_isTransfer hentry ht
  have hlabels : g.items.filterMap Item.labelName? = g.source.labels.map targetLabel := by
    have hnone : (entry.map Item.native).filterMap Item.labelName? = [] :=
      List.filterMap_eq_nil_iff.mpr fun item hitem => labelName?_of_isTransfer (hentry' item hitem)
    rw [heq, List.filterMap_append, hnone, List.nil_append]
    exact labels_flatten htransfers
  obtain ⟨lines, hlines, rfl⟩ := map_eq_ok.mp hblock
  refine ⟨⟨lines, hlines, rfl⟩, ⟨_, parts, heq, hentry', htransfers⟩, hlabels, ?_⟩
  intro i hi hjump target htarget
  rw [hlabels]
  refine count_map_eq_one_iff ?_
  obtain ⟨b, hb, hbi⟩ := List.mem_filterMap.mp hi
  obtain ⟨part, -, hpart⟩ := exists_of_mem_left htransfers hb
  cases hpart with
  | label l => cases hbi
  | jump _ htarget' hmem =>
    obtain rfl := Option.some.inj hbi
    obtain rfl := Option.some.inj (htarget.symm.trans htarget')
    exact hmem
  | call hnone _ _ _ _ _ =>
    obtain rfl := Option.some.inj hbi
    rw [hnone] at hjump
    cases hjump
  | other _ hnone _ =>
    rw [(hnone i hbi).1] at hjump
    cases hjump

/-- The text of a listing is that of its pool and of the blocks of its functions. -/
lemma renderUnit_eq_ok {style : ListingStyle} {pool : Pool} {fs : List ConvertedFunction}
    {text : String} (h : renderUnit style pool fs = .ok text) :
    ∃ front blocks, List.Forall₂ (fun g block => renderFunction style g = .ok block) fs blocks ∧
      text = joinLines (front ++ blocks.flatten) := by
  obtain ⟨poolText, -, h⟩ := bind_eq_ok.mp h
  obtain ⟨blocks, hblocks, h⟩ := bind_eq_ok.mp h
  exact ⟨_, blocks, mapM_eq_ok.mp hblocks, (pure_eq_ok.mp h).symm⟩

/-- In a converted unit every function keeps its jumps, its calls and its labels, in the block that
the text shows of it. -/
theorem convert_keepsTransfers {o : Options} {text : String} {u : ConvertedUnit}
    (h : convert o text = .ok u) :
    ∃ functions x, readFunctions text = .ok (functions, x) ∧
      List.Forall₂ (fun f g => g.source.label = f.label ∧ g.source ∈ functions) functions
        u.functions ∧
      ∃ front blocks, u.text = joinLines (front ++ blocks.flatten) ∧
        List.Forall₂ (KeepsTransfers o) u.functions blocks := by
  obtain ⟨functions, x, hread, -, -, hfs, hrender⟩ := exists_context_of_convert h
  obtain ⟨front, blocks, hblocks, htext⟩ := renderUnit_eq_ok hrender
  refine ⟨functions, x, hread, hfs.imp fun f g hg => ⟨hg.1, hg.2.1⟩, front, blocks, htext, ?_⟩
  have hconvert : ∀ g ∈ u.functions,
      convertFunction (unitContext o x functions) g.source = .ok (.ok g) := by
    intro g hg
    obtain ⟨f, -, -, -, hconvert⟩ := exists_of_mem_right hfs hg
    exact hconvert
  refine ((List.forall₂_and_left _ _).mpr ⟨hconvert, hblocks⟩).imp ?_
  rintro g block ⟨hg, hblock⟩
  exact keepsTransfers_of_convertFunction hg hblock

/-- A unit with a loop that calls a helper. -/
theorem convert_keepsTransfers_of_loop :
    let text := String.join [
      "f: push rbp\n", "mov rbp, rsp\n", ".L1: call memcpy@PLT\n", "dec rdi\n", "jne .L1\n",
      "leave\n", "ret\n"]
    ∃ u, convert {} text = .ok u ∧
      ∃ functions x, readFunctions text = .ok (functions, x) ∧
        List.Forall₂ (fun f g => g.source.label = f.label ∧ g.source ∈ functions) functions
          u.functions ∧
        ∃ front blocks, u.text = joinLines (front ++ blocks.flatten) ∧
          List.Forall₂ (KeepsTransfers {}) u.functions blocks := by
  intro text
  obtain ⟨u, hu, -⟩ : ∃ u, convert {} text = .ok u ∧ u.functions.length = 1 :=
    exists_ok_of_any (by decide +kernel)
  exact ⟨u, hu, convert_keepsTransfers hu⟩

/-- A function with the labels `LBB0_1` and `.LBB0_1` that jumps to the second one. Both are written
alike, so that the jump arrives at the first one. -/
theorem not_transfers_once :
    let text := String.join [
      "f: push rbp\n", "mov rbp, rsp\n", "jmp .LBB0_1\n", "LBB0_1: nop\n", ".LBB0_1: leave\n",
      "ret\n"]
    ∃ u, convert {} text = .ok u ∧ ∃ f ∈ u.functions,
      f.source.labels = ["LBB0_1", ".LBB0_1"] ∧
      (∃ i ∈ f.source.instructions, i.jumpName? = some "JMP" ∧ i.target? = some ".LBB0_1") ∧
      f.items = [.native (.jump "JMP" "LBB0_1"), .label "LBB0_1", .code [0x90] (some "nop"),
        .label ".LBB0_1", .native .ret] ∧
      (∀ name ∈ f.source.labels, (Item.label name).lines {} = .ok ["LBB0_1:"]) ∧
      (f.items.filterMap Item.labelName?).count (targetLabel ".LBB0_1") = 2 := by
  intro text
  obtain ⟨u, hu, f, hf, hlabels, hjump, hitems⟩ :
      ∃ u, convert {} text = .ok u ∧ ∃ f ∈ u.functions,
        f.source.labels = ["LBB0_1", ".LBB0_1"] ∧
        (∃ i ∈ f.source.instructions, i.jumpName? = some "JMP" ∧ i.target? = some ".LBB0_1") ∧
        f.items = [.native (.jump "JMP" "LBB0_1"), .label "LBB0_1", .code [0x90] (some "nop"),
          .label ".LBB0_1", .native .ret] :=
    exists_ok_of_any (by decide +kernel)
  refine ⟨u, hu, f, hf, hlabels, hjump, hitems, ?_, ?_⟩
  · rw [hlabels]
    decide +kernel
  · rw [hitems]
    decide +kernel

end AsmBridge
