import AsmBridge.Function.Extract
import Mathlib.Algebra.GroupWithZero.Nat
import Mathlib.Data.List.Basic
import Mathlib.Tactic.Common

/-!
# Teardowns of frames

A return is recognized together with the teardown before it. `WithoutTeardown` says what it is for a
body to be another one without its last teardown, in the order of the source; `Keeps` says from it
what is kept of a row of records: everything but the returns, each of which takes one teardown with
it and leaves an epilogue. The search for the teardown (`Draft.withoutTeardown?`), which walks back
from the end of the body, finds such a one (`withoutTeardown_of_search`).
-/

namespace AsmBridge

/-- A record as it stands in a body. -/
def Record.item : Record → BodyItem
  | .label l => .label l
  | .directive d => .directive d
  | .instruction i => .instruction i

/-- The instruction that a record is. -/
def Record.instruction? : Record → Option Instruction
  | .instruction i => some i
  | _ => none

/-- The label that a record is. -/
def Record.label? : Record → Option Label
  | .label l => some l
  | _ => none

@[simp] lemma Record.instruction?_item (r : Record) : r.item.instruction? = r.instruction? := by
  cases r <;> rfl

@[simp] lemma Record.label?_item (r : Record) : r.item.label? = r.label? := by cases r <;> rfl

@[simp] lemma Record.isEpilogue_item (r : Record) : r.item.isEpilogue = false := by cases r <;> rfl

/-- The instructions of a part of a body. -/
def instructionsOf (items : List BodyItem) : List Instruction :=
  items.filterMap (·.instruction?)

namespace Instruction

lemma mnemonic_of_isExactly {i : Instruction} {m : String} {ops : List Operand}
    (h : i.isExactly m ops = true) : i.mnemonic = m := by
  rw [isExactly, Bool.and_eq_true, beq_iff_eq] at h
  exact h.1

/-- The instruction is `leave`. -/
def isLeave (i : Instruction) : Bool := i.isExactly "leave" []

/-- The instruction is `pop rbp`. -/
def popsFramePointer (i : Instruction) : Bool := i.isExactly "pop" [.reg .rbp]

/-- The instruction is `mov rsp, rbp`. -/
def freesFrame (i : Instruction) : Bool := i.isExactly "mov" [.reg .rsp, .reg .rbp]

/-- The instruction may be one of a teardown. -/
def tearsDown (i : Instruction) : Bool := i.isLeave || i.popsFramePointer || i.freesFrame

lemma mnemonic_of_tearsDown {i : Instruction} (h : i.tearsDown = true) :
    i.mnemonic = "leave" ∨ i.mnemonic = "pop" ∨ i.mnemonic = "mov" := by
  rw [tearsDown, Bool.or_eq_true, Bool.or_eq_true] at h
  rcases h with (h | h) | h
  · exact .inl (mnemonic_of_isExactly h)
  · exact .inr (.inl (mnemonic_of_isExactly h))
  · exact .inr (.inr (mnemonic_of_isExactly h))

end Instruction

/-- All instructions of a part of a body clear the upper halves of the vector registers. -/
def ClearsOnly (items : List BodyItem) : Prop :=
  ∀ i ∈ instructionsOf items, Draft.clearsUpper i = true

/-- The second body is the first one without its last teardown: without `leave`, or without
`pop rbp` together with the instruction before it if that is `mov rsp, rbp`. Of the instructions
behind the teardown none does more than clear the upper halves of the vector registers. -/
inductive WithoutTeardown : List BodyItem → List BodyItem → Prop
  | leave {front back : List BodyItem} {i : Instruction} (hi : i.isLeave = true)
      (hback : ClearsOnly back) :
      WithoutTeardown (front ++ .instruction i :: back) (front ++ back)
  | pop {front back : List BodyItem} {i : Instruction} (hi : i.popsFramePointer = true)
      (hback : ClearsOnly back)
      (hfront : ∀ m ∈ (instructionsOf front).getLast?, m.freesFrame = false) :
      WithoutTeardown (front ++ .instruction i :: back) (front ++ back)
  | movePop {front mid back : List BodyItem} {m i : Instruction} (hm : m.freesFrame = true)
      (hmid : instructionsOf mid = []) (hi : i.popsFramePointer = true)
      (hback : ClearsOnly back) :
      WithoutTeardown (front ++ .instruction m :: mid ++ .instruction i :: back)
        (front ++ mid ++ back)

/-- What is kept of a row of records behind the start of a body: the records in their order,
without the returns. Each return takes the last teardown before it with it and leaves an
epilogue. -/
inductive Keeps (start : List BodyItem) : List Record → List BodyItem → Prop
  | nil : Keeps start [] start
  | record {rs : List Record} {body : List BodyItem} {r : Record} (h : Keeps start rs body)
      (hr : ∀ i ∈ r.instruction?, i.isRet = false) :
      Keeps start (rs ++ [r]) (body ++ [r.item])
  | ret {rs : List Record} {body rest : List BodyItem} {i : Instruction} (h : Keeps start rs body)
      (hi : i.isRet = true) (ht : WithoutTeardown body rest) :
      Keeps start (rs ++ [.instruction i]) (rest ++ [.epilogue { line := i.line }])

/-! ## What a teardown leaves alone -/

namespace WithoutTeardown

variable {body rest : List BodyItem}

/-- One item more behind the teardown. -/
lemma concat {b : BodyItem} (h : WithoutTeardown body rest)
    (hb : ∀ i ∈ b.instruction?, Draft.clearsUpper i = true) :
    WithoutTeardown (body ++ [b]) (rest ++ [b]) := by
  have hclears : ∀ {back : List BodyItem}, ClearsOnly back → ClearsOnly (back ++ [b]) := by
    intro back hback i hi
    rw [instructionsOf, List.filterMap_append, List.mem_append] at hi
    rcases hi with hi | hi
    · exact hback i hi
    · exact hb i (by simpa using hi)
  cases h with
  | @leave front back i hi hback =>
    simpa using @WithoutTeardown.leave front _ _ hi (hclears hback)
  | @pop front back i hi hback hfront =>
    simpa using WithoutTeardown.pop hi (hclears hback) hfront
  | @movePop front mid back m i hm hmid hi hback =>
    simpa using @WithoutTeardown.movePop front _ _ _ _ hm hmid hi (hclears hback)

/-- Nothing else is lost, put elsewhere or put in. -/
lemma sublist (h : WithoutTeardown body rest) : rest.Sublist body := by
  cases h with
  | @leave front back i _ _ => exact (List.sublist_cons_self _ back).append_left front
  | @pop front back i _ _ _ => exact (List.sublist_cons_self _ back).append_left front
  | @movePop front mid back m i _ _ _ _ =>
    exact ((List.sublist_cons_self _ mid).append_left front).append (List.sublist_cons_self _ back)

/-- What does not look at the instructions of teardowns sees no difference. -/
lemma filterMap {α : Type} {g : BodyItem → Option α} (h : WithoutTeardown body rest)
    (hg : ∀ i : Instruction, i.tearsDown = true → g (.instruction i) = none) :
    rest.filterMap g = body.filterMap g := by
  cases h with
  | @leave front back i hi _ =>
    have hgi : g (.instruction i) = none := hg i (by simp [Instruction.tearsDown, hi])
    simp [List.filterMap_cons_none hgi]
  | @pop front back i hi _ _ =>
    have hgi : g (.instruction i) = none := hg i (by simp [Instruction.tearsDown, hi])
    simp [List.filterMap_cons_none hgi]
  | @movePop front mid back m i hm _ hi _ =>
    have hgi : g (.instruction i) = none := hg i (by simp [Instruction.tearsDown, hi])
    have hgm : g (.instruction m) = none := hg m (by simp [Instruction.tearsDown, hm])
    simp [List.filterMap_cons_none hgi, List.filterMap_cons_none hgm]

/-- The instructions that do not belong to teardowns stay in their order. -/
lemma filter_instructionsOf (h : WithoutTeardown body rest) :
    (instructionsOf rest).filter (!·.tearsDown) = (instructionsOf body).filter (!·.tearsDown) := by
  have hkept := h.filterMap (g := fun b => b.instruction?.filter (!·.tearsDown)) fun i hi => by
    simp [BodyItem.instruction?, hi]
  rwa [← List.filter_filterMap, ← List.filter_filterMap] at hkept

/-- What counts nothing for the instructions of teardowns counts the same. -/
lemma sum_map {g : Instruction → ℕ} (h : WithoutTeardown body rest)
    (hg : ∀ i : Instruction, i.tearsDown = true → g i = 0) :
    ((instructionsOf rest).map g).sum = ((instructionsOf body).map g).sum := by
  have hsum : ∀ is : List Instruction,
      (is.map g).sum = ((is.filter (!·.tearsDown)).map g).sum := by
    intro is
    induction is with
    | nil => rfl
    | cons i is ih =>
      rw [List.map_cons, List.sum_cons, ih]
      cases hi : i.tearsDown with
      | true => rw [List.filter_cons_of_neg (by simp [hi]), hg i hi, Nat.zero_add]
      | false => rw [List.filter_cons_of_pos (by simp [hi]), List.map_cons, List.sum_cons]
  rw [hsum, h.filter_instructionsOf, ← hsum]

/-- An instruction that does not belong to teardowns stays. -/
lemma mem {j : Instruction} (h : WithoutTeardown body rest) (hj : j ∈ instructionsOf body)
    (htears : j.tearsDown = false) : j ∈ instructionsOf rest := by
  have hkept : j ∈ (instructionsOf rest).filter (!·.tearsDown) := by
    rw [h.filter_instructionsOf, List.mem_filter]
    exact ⟨hj, by rw [htears]; rfl⟩
  exact List.mem_of_mem_filter hkept

end WithoutTeardown

/-! ## The search for the teardown -/

/-- A body, last item first, either does not end in `mov rsp, rbp` or is taken apart there. -/
lemma withoutMove_eq (items : List BodyItem) :
    (Draft.withoutMove items = items ∧
      ∀ m ∈ (instructionsOf items).head?, m.freesFrame = false) ∨
    ∃ mid m front, items = mid ++ .instruction m :: front ∧ instructionsOf mid = [] ∧
      m.freesFrame = true ∧ Draft.withoutMove items = mid ++ front := by
  have hpass : ∀ (b : BodyItem) (items : List BodyItem), b.instruction? = none →
      Draft.withoutMove (b :: items) = b :: Draft.withoutMove items := by
    intro b items hb
    cases b with
    | instruction i => cases hb
    | _ => rfl
  induction items with
  | nil => exact .inl ⟨rfl, by simp [instructionsOf]⟩
  | cons b items ih =>
    cases hb : b.instruction? with
    | some i =>
      cases b with
      | instruction j =>
        obtain rfl := Option.some.inj hb
        cases hm : j.freesFrame with
        | true => exact .inr ⟨[], j, items, rfl, rfl, hm, if_pos hm⟩
        | false =>
          refine .inl ⟨if_neg (Bool.eq_false_iff.mp hm), ?_⟩
          rintro m ⟨⟩
          exact hm
      | _ => cases hb
    | none =>
      have hcons : instructionsOf (b :: items) = instructionsOf items :=
        List.filterMap_cons_none hb
      rw [hpass b items hb, hcons]
      rcases ih with ⟨heq, hhead⟩ | ⟨mid, m, front, rfl, hmid, hm, heq⟩
      · exact .inl ⟨by rw [heq], hhead⟩
      · refine .inr ⟨b :: mid, m, front, rfl, ?_, hm, by rw [heq]; rfl⟩
        exact (List.filterMap_cons_none hb).trans hmid

/-- The instructions of a body in the other direction. -/
lemma instructionsOf_reverse (items : List BodyItem) :
    instructionsOf items.reverse = (instructionsOf items).reverse :=
  List.filterMap_reverse

/-- The body without the teardown that the search finds. -/
lemma withoutTeardown_of_search {body rest : List BodyItem}
    (h : Draft.withoutTeardown? body = some rest) :
    WithoutTeardown body.reverse rest.reverse := by
  induction body generalizing rest with
  | nil => cases h
  | cons b body ih =>
    -- What stands behind the teardown is passed over.
    have hpass : ∀ b : BodyItem, (∀ i ∈ b.instruction?, Draft.clearsUpper i = true) →
        (Draft.withoutTeardown? body).map (b :: ·) = some rest →
        WithoutTeardown (b :: body).reverse rest.reverse := by
      intro b hb hrest
      obtain ⟨rest', hrest', rfl⟩ := Option.map_eq_some_iff.mp hrest
      rw [List.reverse_cons, List.reverse_cons]
      exact (ih hrest').concat hb
    cases b with
    | instruction i =>
      rw [Draft.withoutTeardown?] at h
      split_ifs at h with hclears hleave hpop
      · exact hpass _ (by rintro j ⟨⟩; exact hclears) h
      · obtain rfl := Option.some.inj h
        simpa using @WithoutTeardown.leave body.reverse [] _ hleave
          (by simp [ClearsOnly, instructionsOf])
      · obtain rfl := Option.some.inj h
        have hnil : ClearsOnly [] := by simp [ClearsOnly, instructionsOf]
        rcases withoutMove_eq body with ⟨heq, hhead⟩ | ⟨mid, m, front, rfl, hmid, hm, heq⟩
        · rw [heq, List.reverse_cons]
          have hlast : ∀ m ∈ (instructionsOf body.reverse).getLast?, m.freesFrame = false := by
            rw [instructionsOf_reverse, List.getLast?_reverse]
            exact hhead
          simpa using @WithoutTeardown.pop _ [] _ hpop hnil hlast
        · rw [heq]
          have hmid' : instructionsOf mid.reverse = [] := by
            rw [instructionsOf_reverse, hmid]
            rfl
          simpa using @WithoutTeardown.movePop front.reverse _ [] _ _ hm hmid' hpop
            hnil
    | label l => exact hpass (.label l) (by rintro j ⟨⟩) h
    | directive d => exact hpass (.directive d) (by rintro j ⟨⟩) h
    | epilogue e => exact hpass (.epilogue e) (by rintro j ⟨⟩) h

/-! ## What is kept of a row of records -/

namespace Keeps

variable {start body : List BodyItem} {rs : List Record}

/-- What does not look at epilogues finds in the body a part of what it finds in the records, in
their order. -/
lemma filterMap_sublist {α : Type} {g : BodyItem → Option α} (he : ∀ e, g (.epilogue e) = none)
    (h : Keeps start rs body) :
    (body.filterMap g).Sublist (start.filterMap g ++ rs.filterMap fun r => g r.item) := by
  induction h with
  | nil => simp
  | @record rs body r _ hr ih =>
    rw [List.filterMap_append, List.filterMap_append, ← List.append_assoc]
    exact ih.append_right _
  | @ret rs body rest i _ hi ht ih =>
    have hitem : (rest ++ [BodyItem.epilogue { line := i.line }]).filterMap g =
        rest.filterMap g := by
      simp [he]
    rw [hitem, List.filterMap_append, ← List.append_assoc]
    exact ((ht.sublist.filterMap _).trans ih).trans (List.sublist_append_left _ _)

/-- What looks neither at teardowns nor at returns and their epilogues finds the same in the body as
in the records. -/
lemma filterMap {α : Type} {g : BodyItem → Option α} (h : Keeps start rs body)
    (hg : ∀ i : Instruction, i.tearsDown = true ∨ i.isRet = true → g (.instruction i) = none)
    (he : ∀ e, g (.epilogue e) = none) :
    body.filterMap g = start.filterMap g ++ rs.filterMap fun r => g r.item := by
  induction h with
  | nil => simp
  | @record rs body r _ hr ih =>
    rw [List.filterMap_append, ih, List.filterMap_append, List.append_assoc]
    rfl
  | @ret rs body rest i _ hi ht ih =>
    have hlast : [Record.instruction i].filterMap (fun r => g r.item) = [] := by
      simp [Record.item, hg i (.inr hi)]
    rw [List.filterMap_append, ht.filterMap fun j hj => hg j (.inl hj), ih, List.filterMap_append,
      hlast]
    simp [he]

/-- There are as many epilogues as returns. -/
lemma countP_isEpilogue (h : Keeps start rs body) :
    body.countP (·.isEpilogue) =
      start.countP (·.isEpilogue) + (rs.filterMap (·.instruction?)).countP (·.isRet) := by
  have hcount : ∀ items : List BodyItem, items.countP (·.isEpilogue) =
      (items.filterMap (Option.guard (·.isEpilogue))).length := by
    intro items
    rw [List.countP_eq_length_filter, List.filterMap_eq_filter]
  induction h with
  | nil => simp
  | @record rs body r _ hr ih =>
    rw [List.countP_append, ih, List.filterMap_append, List.countP_append]
    cases r with
    | instruction i => simp [Record.item, BodyItem.isEpilogue, Record.instruction?, hr i rfl]
    | _ => simp [Record.item, BodyItem.isEpilogue, Record.instruction?]
  | @ret rs body rest i _ hi ht ih =>
    have hrest : rest.countP (·.isEpilogue) = body.countP (·.isEpilogue) := by
      rw [hcount, hcount, ht.filterMap fun _ _ => rfl]
    rw [List.countP_append, hrest, ih, List.filterMap_append, List.countP_append]
    simp [BodyItem.isEpilogue, Record.instruction?, hi, Nat.add_assoc]

end Keeps

end AsmBridge
