import AsmBridge.Conversion.Function
import AsmBridge.Proofs.Outcome
import AsmBridge.Proofs.Pool.Layout
import Mathlib.Data.List.Basic

/-!
# The lines of a converted function

The items of a converted function do not tell what they were made from. A `Line` does: machine code
stands there with its instruction and the operands that were encoded. `BodyItem.Gives` says which
lines stand in place of a record of a body, one case for each kind of record, and a converted
function is the lines before its body followed by those of its records
(`exists_lines_of_convertFunction`). All that is said of the records of a converted function is read
off `becomes_of_convertRecord`: it tells what takes the place of a record without a defect, and what
had to hold of the record for it.
-/

namespace AsmBridge

/-- A line of a converted function with what it was made from. -/
inductive Line
  | label (name : String)
  | directive (d : Directive)
  /-- The bytes of a data directive of the body. -/
  | data (d : Directive) (bytes : List UInt8)
  /-- The machine code of an instruction of the body, with the operands that were encoded. -/
  | kept (i : Instruction) (ops : List Operand) (bytes : List UInt8)
  | native (t : TargetInstruction)
deriving DecidableEq

namespace Line

/-- The item that a line is in the listing. -/
def item : Line → Item
  | .label name => .label name
  | .directive d => .directive d
  | .data d bytes => .code bytes (some d.text)
  | .kept i _ bytes => .code bytes (some i.text)
  | .native t => .native t

/-- The instruction of the body that a line encodes. -/
def kept? : Line → Option Instruction
  | .kept i _ _ => some i
  | _ => none

/-- The line holds the bytes of a data directive. -/
def isData : Line → Bool
  | .data _ _ => true
  | _ => false

end Line

/-- The instruction becomes machine code: it is no jump and no call, and the target dialect does not
have it by itself. -/
def Instruction.isEncoded (i : Instruction) : Bool :=
  i.jumpName?.isNone && !i.isCall && !Draft.clearsUpper i

/-- An operand and what takes its place when the data of the unit lie in a pool whose address a
register holds. -/
inductive Operand.Moved (pool : Pool) (r : Option Register) : Operand → Operand → Prop
  /-- A datum is addressed in the pool, by its offset and the displacement, with the same width. -/
  | datum {a : Address} {q : Register} {symbol : String} {n : ℕ} (hrip : a.ripRelative = true)
      (hr : r = some q) (hsymbol : a.symbol = some symbol)
      (hn : pool.offset? (some symbol) = some n) :
      Moved pool r (.mem a) (.mem { base := some q, disp := n + a.disp, bits := a.bits })
  /-- Every other operand stays. -/
  | other {o : Operand} (h : ∀ a ∈ o.address?, a.ripRelative = false) : Moved pool r o o

/-- The load of the address of the pool, if a register is to hold it. -/
def anchorLines (name : String) (r : Option Register) : List TargetInstruction :=
  r.toList.map (.leaq name)

/-- The lines in place of a record of a body; `exit` are those in place of a return. -/
inductive BodyItem.Gives (pool : Pool) (r : Option Register) (exit : List TargetInstruction) :
    BodyItem → List Line → Prop
  | label (l : Label) : Gives pool r exit (.label l) [.label l.name]
  | directive (d : Directive) : Gives pool r exit (.directive d) [.directive d]
  | data {d : Directive} {bytes : List UInt8} (h : d.bytes = .ok bytes) :
      Gives pool r exit (.directive d) [.data d bytes]
  | jump {i : Instruction} (name target : String) (henc : i.isEncoded = false)
      (ha : i.addresses = []) :
      Gives pool r exit (.instruction i) [.native (.jump name target)]
  | call {i : Instruction} (package stub : String) (henc : i.isEncoded = false)
      (ha : i.addresses = []) :
      Gives pool r exit (.instruction i)
        ((.call package stub :: anchorLines pool.name r).map .native)
  | clears {i : Instruction} (name : String) (henc : i.isEncoded = false)
      (h : Draft.clearsUpper i = true) :
      Gives pool r exit (.instruction i) [.native (.bare name)]
  | kept {i : Instruction} {ops : List Operand} {bytes : List UInt8} (henc : i.isEncoded = true)
      (hops : List.Forall₂ (Operand.Moved pool r) i.operands ops)
      (h : encode i.mnemonic i.mark ops = .ok bytes) :
      Gives pool r exit (.instruction i) [.kept i ops bytes]
  | epilogue (e : Epilogue) : Gives pool r exit (.epilogue e) (exit.map .native)

/-! ## Operands -/

/-- The operands for which there is machine code, once those at data of the unit are moved. -/
lemma rebaseOperands_eq_ok {pool : Pool} {q : Register} {ops ops' : List Operand}
    (h : rebaseOperands pool q ops = .ok ops') :
    List.Forall₂ (Operand.Moved pool (some q)) ops ops' := by
  rw [rebaseOperands, mapM_eq_ok] at h
  refine h.imp ?_
  intro o o' ho
  split at ho
  · rename_i a
    split at ho
    · rename_i hrip
      obtain ⟨b, hb, rfl⟩ := map_eq_ok.mp ho
      rw [Pool.rebase] at hb
      split at hb
      · rename_i n hn
        obtain ⟨symbol, hsymbol⟩ := pool.exists_symbol_of_offset hn
        obtain rfl := Except.ok.inj hb
        exact .datum hrip rfl hsymbol (hsymbol ▸ hn)
      · cases hb
    · rename_i hrip
      obtain rfl := Except.ok.inj ho
      refine .other ?_
      rintro b ⟨⟩
      simpa using hrip
  · rename_i hmem
    obtain rfl := Except.ok.inj ho
    refine .other ?_
    intro a ha
    cases o with
    | mem b => exact absurd rfl (hmem b)
    | _ => cases ha

/-- Operands without data of the unit stay as they are. -/
lemma moved_self {pool : Pool} {r : Option Register} {i : Instruction}
    (h : ∀ a ∈ i.addresses, a.ripRelative = false) :
    List.Forall₂ (Operand.Moved pool r) i.operands i.operands := by
  rw [List.forall₂_same]
  intro o ho
  exact .other fun a ha => h a (List.mem_filterMap.mpr ⟨o, ho, ha⟩)

/-- An instruction with a target has no addresses. -/
lemma addresses_of_target {i : Instruction} {symbol : String} (h : i.target? = some symbol) :
    i.addresses = [] := by
  rw [Instruction.target?] at h
  split at h
  · rename_i name hops
    rw [Instruction.addresses, hops]
    rfl
  · cases h

/-- No operand that is encoded is relative to the instruction pointer. -/
lemma ripRelative_of_moved {pool : Pool} {r : Option Register} (hr : ∀ q ∈ r, q ≠ .rip)
    {o o' : Operand} (h : Operand.Moved pool r o o') : ∀ a ∈ o'.address?, a.ripRelative = false := by
  cases h with
  | @datum a q _ n _ hq _ _ =>
    rintro b ⟨⟩
    simpa [Address.ripRelative] using hr q hq
  | other h => exact h

/-- An operand at data of the unit is moved to the offset of a symbol. -/
lemma exists_offset_of_moved {pool : Pool} {r : Option Register} {a : Address} {o : Operand}
    (h : Operand.Moved pool r (.mem a) o) (hrip : a.ripRelative = true) :
    ∃ symbol n, a.symbol = some symbol ∧ pool.offset? (some symbol) = some n := by
  cases h with
  | @datum _ _ symbol n _ _ hsymbol hn => exact ⟨symbol, n, hsymbol, hn⟩
  | other h =>
    rw [h a rfl] at hrip
    cases hrip

/-! ## Records -/

section Gives

variable {pool : Pool} {r : Option Register} {exit : List TargetInstruction}

/-- The machine code in place of a record is that of its instruction. -/
lemma kept_of_gives {b : BodyItem} {lines : List Line} (h : b.Gives pool r exit lines) :
    lines.filterMap Line.kept? = b.instruction?.toList.filter Instruction.isEncoded := by
  have hnative : ∀ is : List TargetInstruction,
      (is.map Line.native).filterMap Line.kept? = [] := by
    intro is
    simp [Line.kept?]
  cases h with
  | label l => rfl
  | directive d => rfl
  | data _ => rfl
  | @jump i name target henc _ => simp [BodyItem.instruction?, Line.kept?, henc]
  | @call i package stub henc _ =>
    rw [hnative]
    simp [BodyItem.instruction?, henc]
  | @clears i name henc _ => simp [BodyItem.instruction?, Line.kept?, henc]
  | @kept i ops bytes henc _ _ => simp [BodyItem.instruction?, Line.kept?, henc]
  | epilogue e =>
    rw [hnative]
    rfl

/-- The machine code of a body is that of its instructions, in order. -/
lemma kept_flatten {body : List BodyItem} {parts : List (List Line)}
    (h : List.Forall₂ (BodyItem.Gives pool r exit) body parts) :
    parts.flatten.filterMap Line.kept? =
      (body.filterMap (·.instruction?)).filter Instruction.isEncoded := by
  induction h with
  | nil => rfl
  | @cons b lines body parts hb _ ih =>
    have hcons : (b :: body).filterMap (·.instruction?) =
        b.instruction?.toList ++ body.filterMap (·.instruction?) := by
      cases b <;> rfl
    rw [List.flatten_cons, List.filterMap_append, kept_of_gives hb, ih, hcons, List.filter_append]

/-- Machine code is the encoding of an instruction with its operands moved. -/
lemma encode_of_gives {b : BodyItem} {lines : List Line} (h : b.Gives pool r exit lines)
    {i : Instruction} {ops : List Operand} {bytes : List UInt8}
    (hmem : Line.kept i ops bytes ∈ lines) :
    List.Forall₂ (Operand.Moved pool r) i.operands ops ∧
      encode i.mnemonic i.mark ops = .ok bytes := by
  cases h with
  | @kept j ops' bytes' _ hops hbytes =>
    obtain ⟨rfl, rfl, rfl⟩ := Line.kept.inj (List.mem_singleton.mp hmem)
    exact ⟨hops, hbytes⟩
  | call _ _ _ _ => simp at hmem
  | epilogue _ => simp at hmem
  | _ => cases List.mem_singleton.mp hmem

/-- An instruction with an address relative to the instruction pointer is encoded, unless it clears
the upper halves of the vector registers, and the address has an offset in the pool. -/
lemma exists_offset_of_gives {i : Instruction} {lines : List Line}
    (h : (BodyItem.instruction i).Gives pool r exit lines) (hclears : Draft.clearsUpper i = false)
    {a : Address} (ha : a ∈ i.addresses) (hrip : a.ripRelative = true) :
    i.isEncoded = true ∧
      ∃ symbol n, a.symbol = some symbol ∧ pool.offset? (some symbol) = some n := by
  cases h with
  | jump _ _ _ hnone =>
    rw [hnone] at ha
    cases ha
  | call _ _ _ hnone =>
    rw [hnone] at ha
    cases ha
  | clears _ _ h =>
    rw [hclears] at h
    cases h
  | @kept _ ops bytes henc hops _ =>
    obtain ⟨o, ho, hoa⟩ := List.mem_filterMap.mp ha
    obtain ⟨o', -, hmoved⟩ := exists_of_mem_left hops ho
    cases o with
    | mem b =>
      obtain rfl := Option.some.inj hoa
      exact ⟨henc, exists_offset_of_moved hmoved hrip⟩
    | _ => cases hoa

end Gives

section Records

variable {c : UnitContext} {f : SourceFunction} {r : Option Register} {i : Instruction}
  {items : List Item}

/-- The load of the pool address is its line. -/
lemma mapM_loadPool_eq_ok {name : String} {anchor : Option TargetInstruction}
    (h : (r.mapM (loadPool name) : Except Stop _) = .ok anchor) :
    anchor.toList = anchorLines name r := by
  cases r with
  | none => rw [option_mapM_eq_none.mpr rfl] at h; rw [← Except.ok.inj h]; rfl
  | some q =>
    rw [Option.mapM_some, loadPool] at h
    split at h
    · rw [← Except.ok.inj h]
      rfl
    · cases h

/-- The operands of an instruction, those at data of the unit moved if a register holds the address
of the pool. -/
def moveOperands (pool : Pool) (r : Option Register) (ops : List Operand) :
    Except Fault (List Operand) :=
  match r with
  | some q => (rebaseOperands pool q ops).mapError Fault.stop
  | none => .ok ops

/-- The items in place of an instruction that is encoded with the operands. -/
def encodeItems (f : SourceFunction) (i : Instruction) (ops : List Operand) :
    Except Fault ItemsOrDefect :=
  match encode i.mnemonic i.mark ops with
  | .ok bytes => .ok (.ok [.code bytes (some i.text)])
  | .error e =>
    if e.isRefusal then
      .ok (.error (functionDefect f i.line i.mnemonic (.notEncodable i.text e.message)))
    else .error (.encoding e)

/-- An instruction is encoded once its operands are moved. -/
lemma convertCode_eq (c : UnitContext) (f : SourceFunction) (r : Option Register)
    (i : Instruction) :
    convertCode c f r i = moveOperands c.pool r i.operands >>= encodeItems f i := by
  cases r <;> rfl

/-- An instruction that becomes machine code is converted by its encoding. -/
lemma convertInstruction_eq (henc : i.isEncoded = true) :
    convertInstruction c f r i = moveOperands c.pool r i.operands >>= encodeItems f i := by
  simp only [Instruction.isEncoded, Bool.and_eq_true, Bool.not_eq_true', Option.isNone_iff_eq_none]
    at henc
  obtain ⟨⟨hjump, hcall⟩, hclears⟩ := henc
  simp only [convertInstruction, hjump, hcall, hclears, convertCode_eq]
  rfl

/-- Where no register holds the address of the pool, the operands are not at data of the unit. -/
lemma moved_of_moveOperands {pool : Pool} {ops : List Operand}
    (hnone : r = none → ∀ a ∈ i.addresses, a.ripRelative = false)
    (h : moveOperands pool r i.operands = .ok ops) :
    List.Forall₂ (Operand.Moved pool r) i.operands ops := by
  cases r with
  | none =>
    obtain rfl := Except.ok.inj h
    exact moved_self (hnone rfl)
  | some q => exact rebaseOperands_eq_ok (mapError_eq_ok.mp h)

/-- A jump is one to a label of its function. -/
lemma Helpers.jumpTarget_eq_ok {target : String} (h : jumpTarget f i = .ok target) :
    i.target? = some target ∧ target ∈ f.labels := by
  rw [jumpTarget] at h
  split at h
  · cases h
  · rename_i symbol hsymbol
    split at h
    · rename_i hmem
      obtain rfl := Except.ok.inj h
      exact ⟨hsymbol, by simpa using hmem⟩
    · cases h

/-- A call is one of a helper that is allowed, by its name. -/
lemma Helpers.callLine_eq_ok {hs : Helpers} {call : TargetInstruction}
    (h : hs.callLine f i = .ok call) :
    ∃ symbol, ∃ helper ∈ hs.allowed, i.target? = some symbol ∧
      helper.name = targetName symbol f.isSegmented ∧ call = .call hs.package helper.stub := by
  obtain ⟨site, hsite, rfl⟩ := map_eq_ok.mp h
  rw [resolve] at hsite
  split at hsite
  · cases hsite
  · rename_i symbol hsymbol
    dsimp only at hsite
    split at hsite
    · rename_i helper hfind
      obtain rfl := Except.ok.inj hsite
      have hname := List.find?_some hfind
      exact ⟨symbol, helper, List.mem_of_find?_eq_some hfind, hsymbol, by simpa using hname, rfl⟩
    · cases hsite

/-- What takes the place of a record without a defect; `exit` takes that of a return. -/
inductive BodyItem.Becomes (c : UnitContext) (f : SourceFunction) (r : Option Register)
    (exit : List Item) : BodyItem → List Item → Prop
  | label (l : Label) : Becomes c f r exit (.label l) [.label l.name]
  | directive (d : Directive) : Becomes c f r exit (.directive d) [.directive d]
  | data {d : Directive} {bytes : List UInt8} (h : d.bytes = .ok bytes) :
      Becomes c f r exit (.directive d) [.code bytes (some d.text)]
  | jump {i : Instruction} {name target : String} (hname : i.jumpName? = some name)
      (htarget : i.target? = some target) (hmem : target ∈ f.labels) :
      Becomes c f r exit (.instruction i) [.native (.jump name (targetLabel target))]
  | call {i : Instruction} {symbol : String} {h : Helper} (hjump : i.jumpName? = none)
      (hcall : i.isCall = true) (htarget : i.target? = some symbol) (hmem : h ∈ c.helpers.allowed)
      (hname : h.name = targetName symbol f.isSegmented) :
      Becomes c f r exit (.instruction i)
        ((.call c.helpers.package h.stub :: anchorLines c.pool.name r).map .native)
  | clears {i : Instruction} (hjump : i.jumpName? = none) (hcall : i.isCall = false)
      (h : Draft.clearsUpper i = true) :
      Becomes c f r exit (.instruction i) [.native (.bare i.mnemonic.toUpper)]
  | code {i : Instruction} {ops : List Operand} {bytes : List UInt8} (hjump : i.jumpName? = none)
      (hcall : i.isCall = false) (hclears : Draft.clearsUpper i = false)
      (hops : moveOperands c.pool r i.operands = .ok ops)
      (h : encode i.mnemonic i.mark ops = .ok bytes) :
      Becomes c f r exit (.instruction i) [.code bytes (some i.text)]
  | epilogue (e : Epilogue) : Becomes c f r exit (.epilogue e) exit

/-- A call that is converted is one of a helper, and the pool address is loaded behind it. -/
lemma becomes_of_convertCall {exit : List Item} (hjump : i.jumpName? = none)
    (hcall : i.isCall = true) (h : convertCall c f r i = .ok (.ok items)) :
    (BodyItem.instruction i).Becomes c f r exit items := by
  rw [convertCall] at h
  split at h
  · cases pure_eq_ok.mp h
  · rename_i call hline
    obtain ⟨anchor, hanchor, h⟩ := bind_eq_ok.mp h
    obtain rfl := Except.ok.inj (pure_eq_ok.mp h)
    obtain ⟨symbol, helper, hmem, hsymbol, hname, rfl⟩ := Helpers.callLine_eq_ok hline
    rw [mapM_loadPool_eq_ok hanchor]
    exact .call hjump hcall hsymbol hmem hname

/-- An instruction that is converted by its encoding has its machine code for it. -/
lemma becomes_of_convertCode {exit : List Item} (hjump : i.jumpName? = none)
    (hcall : i.isCall = false) (hclears : Draft.clearsUpper i = false)
    (h : convertCode c f r i = .ok (.ok items)) :
    (BodyItem.instruction i).Becomes c f r exit items := by
  rw [convertCode_eq] at h
  obtain ⟨ops, hops, h⟩ := bind_eq_ok.mp h
  unfold encodeItems at h
  split at h
  · rename_i bytes hbytes
    obtain rfl := Except.ok.inj (Except.ok.inj h)
    exact .code hjump hcall hclears hops hbytes
  · split at h
    · cases Except.ok.inj h
    · cases h

/-- What takes the place of a record that is converted. -/
lemma becomes_of_convertRecord {b : BodyItem} {exit : List Item}
    (h : convertRecord c f r exit b = .ok (.ok items)) : b.Becomes c f r exit items := by
  cases b with
  | label l =>
    obtain rfl := Except.ok.inj (Except.ok.inj h)
    exact .label l
  | epilogue e =>
    obtain rfl := Except.ok.inj (Except.ok.inj h)
    exact .epilogue e
  | directive d =>
    rw [convertRecord] at h
    split at h
    · have hdata := mapError_eq_ok.mp h
      rw [convertData] at hdata
      split at hdata
      · rename_i bytes hbytes
        obtain rfl := Except.ok.inj (Except.ok.inj hdata)
        exact .data hbytes
      · cases hdata
      · cases Except.ok.inj hdata
    · obtain rfl := Except.ok.inj (Except.ok.inj h)
      exact .directive d
  | instruction i =>
    rw [convertRecord, convertInstruction] at h
    split at h
    · rename_i name hname
      obtain ⟨target, htarget, rfl⟩ := map_eq_ok.mp (Except.ok.inj h)
      obtain ⟨hsymbol, hmem⟩ := Helpers.jumpTarget_eq_ok htarget
      exact .jump hname hsymbol hmem
    · rename_i hjump
      split_ifs at h with hcall hclears
      · exact becomes_of_convertCall hjump hcall (mapError_eq_ok.mp h)
      · obtain rfl := Except.ok.inj (Except.ok.inj h)
        exact .clears hjump (Bool.eq_false_iff.mpr hcall) hclears
      · exact becomes_of_convertCode hjump (Bool.eq_false_iff.mpr hcall)
          (Bool.eq_false_iff.mpr hclears) h

/-- What takes the place of a record are its lines. -/
lemma exists_lines_of_becomes {b : BodyItem} {exit : List TargetInstruction}
    (hnone : r = none → ∀ i ∈ b.instruction?, ∀ a ∈ i.addresses, a.ripRelative = false)
    (h : b.Becomes c f r (exit.map .native) items) :
    ∃ lines, b.Gives c.pool r exit lines ∧ lines.map Line.item = items := by
  cases h with
  | label l => exact ⟨_, .label l, rfl⟩
  | directive d => exact ⟨_, .directive d, rfl⟩
  | data hbytes => exact ⟨_, .data hbytes, rfl⟩
  | jump hname htarget _ =>
    exact ⟨_, .jump _ _ (by simp [Instruction.isEncoded, hname]) (addresses_of_target htarget), rfl⟩
  | @call _ _ helper _ hcall htarget _ _ =>
    exact ⟨_, .call c.helpers.package helper.stub (by simp [Instruction.isEncoded, hcall])
      (addresses_of_target htarget), by simp [Line.item, Function.comp_def]⟩
  | clears _ _ hclears =>
    exact ⟨_, .clears _ (by simp [Instruction.isEncoded, hclears]) hclears, rfl⟩
  | code hjump hcall hclears hops hbytes =>
    exact ⟨_, .kept (by simp [Instruction.isEncoded, hjump, hcall, hclears])
      (moved_of_moveOperands (fun hr => hnone hr _ rfl) hops) hbytes, rfl⟩
  | epilogue e => exact ⟨_, .epilogue e, by simp [Line.item, Function.comp_def]⟩

/-- What is collected from records without a defect is what takes the place of each. -/
lemma exists_parts_of_collect {exit : List Item} {body : List BodyItem}
    {results : List ItemsOrDefect}
    (h : List.Forall₂ (fun b result => convertRecord c f r exit b = .ok result) body results)
    (hds : (collect f (body.zip results)).1 = []) :
    ∃ parts, List.Forall₂ (BodyItem.Becomes c f r exit) body parts ∧
      (collect f (body.zip results)).2 = parts.flatten := by
  induction h with
  | nil => exact ⟨[], .nil, rfl⟩
  | @cons b result body results hb _ ih =>
    cases result with
    | error d => simp [collect] at hds
    | ok part =>
      rw [List.zip_cons_cons, collect] at hds ⊢
      obtain ⟨parts, hparts, heq⟩ := ih hds
      refine ⟨part :: parts, .cons (becomes_of_convertRecord hb) hparts, ?_⟩
      rw [List.flatten_cons, ← heq]

/-- What takes the place of the records of a body are the lines of each. -/
lemma exists_lines_of_parts {exit : List TargetInstruction} {body : List BodyItem}
    {parts : List (List Item)}
    (hnone : r = none → ∀ i ∈ body.filterMap (·.instruction?), ∀ a ∈ i.addresses,
      a.ripRelative = false)
    (h : List.Forall₂ (BodyItem.Becomes c f r (exit.map .native)) body parts) :
    ∃ rows, List.Forall₂ (BodyItem.Gives c.pool r exit) body rows ∧
      rows.flatten.map Line.item = parts.flatten := by
  induction h with
  | nil => exact ⟨[], .nil, rfl⟩
  | @cons b part body parts hb _ ih =>
    have hhead : r = none → ∀ i ∈ b.instruction?, ∀ a ∈ i.addresses, a.ripRelative = false :=
      fun hr i hi => hnone hr i (List.mem_filterMap.mpr ⟨b, List.mem_cons_self, hi⟩)
    have hrest : r = none → ∀ i ∈ body.filterMap (·.instruction?), ∀ a ∈ i.addresses,
        a.ripRelative = false := by
      intro hr i hi
      obtain ⟨e, he, hei⟩ := List.mem_filterMap.mp hi
      exact hnone hr i (List.mem_filterMap.mpr ⟨e, List.mem_cons_of_mem _ he, hei⟩)
    obtain ⟨lines, hlines, hline⟩ := exists_lines_of_becomes hhead hb
    obtain ⟨rows, hrows, hitems⟩ := ih hrest
    refine ⟨lines :: rows, .cons hlines hrows, ?_⟩
    rw [List.flatten_cons, List.map_append, hline, hitems, List.flatten_cons]

end Records

/-! ## Functions -/

section Functions

variable {c : UnitContext} {f : SourceFunction}

/-- The register of the pool, where there is one, is the free one of the function. -/
lemma poolRegister_eq_ok {r : Option Register}
    (h : (f.references = [] ∧ r = none) ∨ ∃ q, r = some q ∧ f.poolRegister = .ok q) :
    ∀ q ∈ r, f.poolRegister = .ok q := by
  rintro q hq
  rcases h with ⟨-, rfl⟩ | ⟨q', rfl, hok⟩
  · cases hq
  · obtain rfl := Option.some.inj hq
    exact hok

/-- What a plan of a function is made of. -/
structure FunctionPlan.IsPlanOf (c : UnitContext) (f : SourceFunction) (p : FunctionPlan) : Prop where
  signature : f.resolveSignature (c.options.symbol f) c.options.prototypes = .ok p.signature
  slots : p.slots = assignArguments p.signature
  layout : ∃ reserve, c.helpers.reserve f = .ok reserve ∧ f.planFrame p.slots reserve = .ok p.layout
  register : (f.references = [] ∧ p.poolRegister = none) ∨
    ∃ q, p.poolRegister = some q ∧ f.poolRegister = .ok q

/-- A plan is made of these parts. -/
lemma isPlanOf_of_planFunction {p : FunctionPlan} (h : planFunction c f = .ok p) :
    p.IsPlanOf c f := by
  unfold planFunction at h
  obtain ⟨signature, hsignature, h⟩ := bind_eq_ok.mp h
  obtain ⟨reserve, hreserve, h⟩ := bind_eq_ok.mp h
  obtain ⟨layout, hlayout, h⟩ := bind_eq_ok.mp h
  split at h
  · rename_i hreferences
    obtain rfl := pure_eq_ok.mp h
    exact ⟨hsignature, rfl, ⟨reserve, mapError_eq_ok.mp hreserve, hlayout⟩,
      .inl ⟨List.isEmpty_iff.mp hreferences, rfl⟩⟩
  · obtain ⟨r, hr, h⟩ := bind_eq_ok.mp h
    obtain ⟨q, hq, rfl⟩ := map_eq_ok.mp hr
    obtain rfl := pure_eq_ok.mp h
    exact ⟨hsignature, rfl, ⟨reserve, mapError_eq_ok.mp hreserve, hlayout⟩, .inr ⟨q, rfl, hq⟩⟩

/-- The conversion of a body is what is collected from its records, behind the lines before it. -/
lemma convertBody_eq {p : FunctionPlan}
    {result : Except (List Diagnostic) ConvertedFunction} (h : convertBody c f p = .ok result) :
    ∃ entry exit results, preamble p.slots p.layout c.pool.name p.poolRegister = .ok entry ∧
      ((f.returns = 0 ∧ exit = []) ∨ epilogue p.signature p.layout = .ok exit) ∧
      f.body.mapM (convertRecord c f p.poolRegister (exit.map .native)) = .ok results ∧
      (if (collect f (f.body.zip results)).1.isEmpty then
        .ok { source := f, symbol := c.options.symbol f, signature := p.signature,
              layout := p.layout,
              items := entry.map .native ++ (collect f (f.body.zip results)).2 }
      else .error (collect f (f.body.zip results)).1) = result := by
  unfold convertBody at h
  obtain ⟨entry, hentry, h⟩ := bind_eq_ok.mp h
  split at h
  · rename_i hreturns
    obtain ⟨exit, hexit, h⟩ := bind_eq_ok.mp h
    obtain ⟨results, hresults, h⟩ := bind_eq_ok.mp h
    exact ⟨entry, exit, results, mapError_eq_ok.mp hentry,
      .inl ⟨hreturns, (pure_eq_ok.mp hexit).symm⟩,
      hresults, pure_eq_ok.mp ((apply_ite pure _ _ _).trans h)⟩
  · obtain ⟨exit, hexit, h⟩ := bind_eq_ok.mp h
    obtain ⟨results, hresults, h⟩ := bind_eq_ok.mp h
    exact ⟨entry, exit, results, mapError_eq_ok.mp hentry, .inr (mapError_eq_ok.mp hexit),
      hresults, pure_eq_ok.mp ((apply_ite pure _ _ _).trans h)⟩

/-- A body that is converted is the lines before it and what takes the place of its records. -/
lemma convertBody_eq_ok {p : FunctionPlan} {g : ConvertedFunction}
    (h : convertBody c f p = .ok (.ok g)) :
    ∃ entry exit parts, preamble p.slots p.layout c.pool.name p.poolRegister = .ok entry ∧
      ((f.returns = 0 ∧ exit = []) ∨ epilogue p.signature p.layout = .ok exit) ∧
      List.Forall₂ (BodyItem.Becomes c f p.poolRegister (exit.map .native)) f.body parts ∧
      g = { source := f, symbol := c.options.symbol f, signature := p.signature,
            layout := p.layout, items := entry.map .native ++ parts.flatten } := by
  obtain ⟨entry, exit, results, hentry, hexit, hresults, hg⟩ := convertBody_eq h
  split at hg
  · rename_i hds
    obtain rfl := Except.ok.inj hg
    obtain ⟨parts, hparts, hitems⟩ :=
      exists_parts_of_collect (mapM_eq_ok.mp hresults) (List.isEmpty_iff.mp hds)
    exact ⟨entry, exit, parts, hentry, hexit, hparts, by rw [hitems]⟩
  · cases hg

/-- A function is converted if nothing is found when it is read, it has a plan, and its body is
converted by its plan. -/
lemma convertFunction_eq_ok_iff {g : ConvertedFunction} :
    convertFunction c f = .ok (.ok g) ↔
      problems f = [] ∧ ∃ p, planFunction c f = .ok p ∧ convertBody c f p = .ok (.ok g) := by
  rw [convertFunction]
  by_cases hproblems : problems f = []
  · rw [hproblems]
    cases planFunction c f with
    | ok p => simp
    | error e => cases e <;> simp
  · simp [hproblems]

/-- A function that is not converted has a defect. -/
lemma convertFunction_error_ne_nil {ds : List Diagnostic}
    (h : convertFunction c f = .ok (.error ds)) : ds ≠ [] := by
  rintro rfl
  rw [convertFunction] at h
  split at h
  · rename_i hfound
    rw [Except.error.inj (Except.ok.inj h)] at hfound
    cases hfound
  · split at h
    · obtain ⟨entry, exit, results, -, -, -, hg⟩ := convertBody_eq h
      split at hg
      · cases hg
      · rename_i hds
        rw [Except.error.inj hg] at hds
        exact hds rfl
    · cases Except.error.inj (Except.ok.inj h)
    · cases h

/-- A function without references has no address relative to the instruction pointer. -/
lemma ripRelative_of_references (h : f.references = []) :
    ∀ i ∈ f.instructions, ∀ a ∈ i.addresses, a.ripRelative = false := by
  intro i hi a ha
  by_contra hrip
  rw [Bool.not_eq_false] at hrip
  have hmem : a.symbol ∈ f.references := by
    rw [SourceFunction.references, List.mem_eraseDups]
    exact List.mem_map.mpr ⟨a, List.mem_filter.mpr
      ⟨List.mem_flatMap.mpr ⟨i, hi, ha⟩, hrip⟩, rfl⟩
  rw [h] at hmem
  cases hmem

section Congr

variable {c' : UnitContext} (hhelpers : c.helpers = c'.helpers)
  (hname : c.pool.name = c'.pool.name) (hrebase : rebaseOperands c.pool = rebaseOperands c'.pool)
include hhelpers hname hrebase

/-- The conversion of a record depends on the unit by its helpers and by its pool, of which the name
and the offsets count. -/
lemma convertRecord_congr : convertRecord c f = convertRecord c' f := by
  funext r exit b
  unfold convertRecord convertInstruction convertCode convertCall
  rw [hhelpers, hname, hrebase]

/-- The conversion of a function depends on the options by its symbol and the prototypes only. -/
lemma convertFunction_congr (hsymbol : c.options.symbol f = c'.options.symbol f)
    (hprototypes : c.options.prototypes = c'.options.prototypes) :
    convertFunction c f = convertFunction c' f := by
  unfold convertFunction planFunction convertBody
  rw [convertRecord_congr hhelpers hname hrebase, hsymbol, hprototypes, hhelpers, hname]

end Congr

section Plan

variable {p : FunctionPlan} (hp : p.IsPlanOf c f)
include hp

/-- A function that is planned without a register for the pool has no references. -/
lemma FunctionPlan.IsPlanOf.ripRelative (hnone : p.poolRegister = none) :
    ∀ i ∈ f.instructions, ∀ a ∈ i.addresses, a.ripRelative = false := by
  rcases hp.register with ⟨hreferences, -⟩ | ⟨q, hq, -⟩
  · exact ripRelative_of_references hreferences
  · cases hq.symm.trans hnone

end Plan

/-- A converted function is the lines before its body, which are planned for its signature, followed
by those of its records. -/
lemma exists_lines_of_convertFunction {g : ConvertedFunction}
    (h : convertFunction c f = .ok (.ok g)) :
    g.source = f ∧ ∃ r entry exit parts,
      ((f.references = [] ∧ r = none) ∨ ∃ q, r = some q ∧ f.poolRegister = .ok q) ∧
      preamble (assignArguments g.signature) g.layout c.pool.name r = .ok entry ∧
      ((f.returns = 0 ∧ exit = []) ∨ epilogue g.signature g.layout = .ok exit) ∧
      List.Forall₂ (BodyItem.Gives c.pool r exit) f.body parts ∧
      (entry.map Line.native ++ parts.flatten).map Line.item = g.items := by
  obtain ⟨-, p, hp, hbody⟩ := convertFunction_eq_ok_iff.mp h
  have hplan := isPlanOf_of_planFunction hp
  obtain ⟨entry, exit, parts, hentry, hexit, hparts, rfl⟩ := convertBody_eq_ok hbody
  obtain ⟨rows, hrows, hitems⟩ := exists_lines_of_parts hplan.ripRelative hparts
  rw [hplan.slots] at hentry
  refine ⟨rfl, p.poolRegister, entry, exit, rows, hplan.register, hentry, hexit, hrows, ?_⟩
  rw [List.map_append, hitems, List.map_map]
  rfl

/-- What holds of the instructions of the target and of the lines of each record holds of all items
of a converted function. -/
lemma forall_items_of_convertFunction {g : ConvertedFunction} {P : Item → Prop}
    (hnative : ∀ t, P (.native t))
    (hbody : ∀ b ∈ f.body, ∀ {r exit lines}, b.Gives c.pool r exit lines → ∀ l ∈ lines, P l.item)
    (h : convertFunction c f = .ok (.ok g)) : ∀ item ∈ g.items, P item := by
  obtain ⟨-, r, entry, exit, parts, -, -, -, hparts, hitems⟩ := exists_lines_of_convertFunction h
  rw [← hitems, List.forall_mem_map]
  intro l hl
  rcases List.mem_append.mp hl with hl | hl
  · obtain ⟨t, -, rfl⟩ := List.mem_map.mp hl
    exact hnative t
  · obtain ⟨lines, hlines, hl⟩ := List.mem_flatten.mp hl
    obtain ⟨b, hb, hgives⟩ := exists_of_mem_right hparts hlines
    exact hbody b hb hgives l hl

end Functions

end AsmBridge
