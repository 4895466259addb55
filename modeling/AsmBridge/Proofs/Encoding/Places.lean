import AsmBridge.Proofs.Encoding.Rows

/-!
# Operands in their places

The operands of an instruction are put into their places one after another. Where each place is the
place of one operand only, as in every form of the table (`Form.IsListed.isReadable`), what stands
there at the end is that operand's, and a place of no operand is empty.
-/

namespace AsmBridge

/-- The place may hold a register, by its number. -/
def Place.holdsRegister : Place → Bool
  | .imm => false
  | .implied => false
  | _ => true

namespace Placed

/-- What stands in the field of a place, with everything else empty. -/
def content (p : Placed) (place : Place) : Placed :=
  match place.field with
  | .opcode => { opcode := p.opcode }
  | .reg => { reg := p.reg }
  | .rm => { rm := p.rm }
  | .vvvv => { vvvv := p.vvvv }
  | .imm => { imm := p.imm }
  | _ => {}

/-- An operand with its type and its slot. -/
abbrev Row := OperandType × Slot × Operand

/-- The places after one more row. -/
def putRow (p : Placed) (q : Row) : Placed := p.put q.1 q.2.1 q.2.2

/-- The fields of two rows differ, or the opcode implies them. -/
def Apart (q r : Row) : Prop :=
  q.2.1.place = .implied ∨ q.2.1.place.field ≠ r.2.1.place.field

/-- An operand leaves the fields of other places as they are. -/
lemma content_putRow_of_ne (p : Placed) {q : Row} {place : Place}
    (h : q.2.1.place = .implied ∨ q.2.1.place.field ≠ place.field) :
    (p.putRow q).content place = p.content place := by
  obtain ⟨t, ⟨own, use⟩, o⟩ := q
  cases own <;> cases place <;> simp_all [putRow, put, content, Place.field]

/-- Operands in other places leave a field as it is. -/
lemma content_foldl_of_forall_ne {rows : List Row} {place : Place} (p : Placed)
    (h : ∀ q ∈ rows, q.2.1.place = .implied ∨ q.2.1.place.field ≠ place.field) :
    (rows.foldl putRow p).content place = p.content place := by
  induction rows generalizing p with
  | nil => rfl
  | cons q rows ih =>
    rw [List.foldl_cons, ih _ fun r hr => h r (List.mem_cons_of_mem q hr),
      content_putRow_of_ne p (h q List.mem_cons_self)]

/-- What stands in the field of an operand is put there by that operand alone. -/
lemma content_foldl_of_mem {rows : List Row} (hdiff : rows.Pairwise fun q r => Apart q r ∧ Apart r q)
    {q : Row} (hq : q ∈ rows) (p : Placed) :
    ∃ p' : Placed, p'.content q.2.1.place = p.content q.2.1.place ∧
      (rows.foldl putRow p).content q.2.1.place = (p'.putRow q).content q.2.1.place := by
  induction rows generalizing p with
  | nil => cases hq
  | cons r rows ih =>
    obtain ⟨hhead, hdiff⟩ := List.pairwise_cons.mp hdiff
    rw [List.foldl_cons]
    rcases List.mem_cons.mp hq with rfl | hq
    · exact ⟨p, rfl, content_foldl_of_forall_ne _ fun s hs => (hhead s hs).2⟩
    · obtain ⟨p', hp', hcontent⟩ := ih hdiff hq (p.putRow r)
      exact ⟨p', hp'.trans (content_putRow_of_ne p (hhead q hq).1), hcontent⟩

/-- A register that needs an extension byte is noted by the operand that has it. -/
lemma needsRex_putRow (p : Placed) (q : Row) :
    (p.putRow q).needsRex = (p.needsRex ||
      (q.2.1.place.holdsRegister && needs q.2.2)) := by
  obtain ⟨t, ⟨own, use⟩, o⟩ := q
  cases own <;> simp [putRow, put, Place.holdsRegister]

/-- A register in a place that needs an extension byte is noted in the end. -/
lemma needsRex_foldl_of_mem {rows : List Row} {q : Row} (hq : q ∈ rows)
    (h : (q.2.1.place.holdsRegister && needs q.2.2) = true) (p : Placed) :
    (rows.foldl putRow p).needsRex = true := by
  have hkeep : ∀ (rows : List Row) (p : Placed), p.needsRex = true →
      (rows.foldl putRow p).needsRex = true := by
    intro rows
    induction rows with
    | nil => exact fun p hp => hp
    | cons r rows ih =>
      intro p hp
      exact ih _ (by rw [needsRex_putRow, hp, Bool.true_or])
  induction rows generalizing p with
  | nil => cases hq
  | cons r rows ih =>
    rcases List.mem_cons.mp hq with rfl | hq
    · exact hkeep rows _ (by rw [needsRex_putRow, h, Bool.or_true])
    · exact ih hq _

end Placed

/-! ## The places of a readable form -/

/-- The rows of a form with its operands. -/
def Form.rows (f : Form) (ops : List Operand) : List Placed.Row := f.types.zip (f.slots.zip ops)

namespace Placed

variable {f : Form} {ops : List Operand} {q : Row}

lemma mem_slots_of_mem_rows (hq : q ∈ f.rows ops) : q.2.1 ∈ f.slots :=
  (List.of_mem_zip (List.of_mem_zip hq).2).1

/-- The type of a row is related to its operand as the types are to the operands. -/
lemma rel_of_mem_rows {R : OperandType → Operand → Prop} (hrel : List.Forall₂ R f.types ops)
    (hq : q ∈ f.rows ops) : R q.1 q.2.2 := by
  obtain ⟨i, hi, rfl⟩ := List.mem_iff_getElem.mp hq
  simp only [Form.rows, List.getElem_zip]
  exact hrel.get _ _

/-- The type of a row takes its operand. -/
lemma takes_of_mem_rows (htakes : List.Forall₂ (fun t o => t.takes o = true) f.types ops)
    (hq : q ∈ f.rows ops) : q.1.takes q.2.2 = true :=
  rel_of_mem_rows htakes hq

/-- The type of a row belongs to its slot. -/
lemma mem_zip_of_mem_rows (hq : q ∈ f.rows ops) : (q.1, q.2.1) ∈ f.types.zip f.slots := by
  obtain ⟨i, hi, rfl⟩ := List.mem_iff_getElem.mp hq
  rw [Form.rows, List.length_zip, List.length_zip] at hi
  simp only [Form.rows, List.getElem_zip]
  exact List.mem_iff_getElem.mpr ⟨i, by rw [List.length_zip]; omega, by rw [List.getElem_zip]⟩

/-- A place that some operand has belongs to a row. -/
lemma exists_row_of_hasPlace (hslots : f.slots.length = f.types.length)
    (hlen : f.types.length = ops.length) {place : Place} (h : hasPlace place f.slots = true) :
    ∃ q ∈ f.rows ops, q.2.1.place = place := by
  obtain ⟨s, hs, hplace⟩ := List.any_eq_true.mp h
  obtain ⟨i, hi, rfl⟩ := List.mem_iff_getElem.mp hs
  have hi' : i < (f.rows ops).length := by
    rw [Form.rows, List.length_zip, List.length_zip]
    omega
  refine ⟨(f.rows ops)[i], List.getElem_mem hi', ?_⟩
  simp only [Form.rows, List.getElem_zip]
  exact eq_of_beq hplace

/-- The operand of a row is one of the operands. -/
lemma mem_ops_of_mem_rows (hq : q ∈ f.rows ops) : q.2.2 ∈ ops :=
  (List.of_mem_zip (List.of_mem_zip hq).2).2

/-- The place of a row is a place of some operand. -/
lemma hasPlace_of_mem_rows (hq : q ∈ f.rows ops) : hasPlace q.2.1.place f.slots = true :=
  List.any_eq_true.mpr ⟨q.2.1, mem_slots_of_mem_rows hq, beq_self_eq_true _⟩

/-- The fields of the rows of a readable form differ. -/
lemma rows_pairwise (hf : f.IsReadable) (hlen : f.types.length = ops.length) :
    (f.rows ops).Pairwise fun q r => Apart q r ∧ Apart r q := by
  have hslots : (f.rows ops).map (fun q => q.2.1) = f.slots := by
    have hcomp : (fun q : Row => q.2.1) = Prod.fst ∘ Prod.snd := rfl
    have hlength := hf.length_slots
    rw [Form.rows, hcomp, ← List.map_map, List.map_snd_zip, List.map_fst_zip]
    · omega
    · rw [List.length_zip]
      omega
  have hapart := hf.apart
  rw [← hslots, List.pairwise_map] at hapart
  exact hapart

/-- The field of an operand holds what the operand puts there. -/
lemma content_ofForm (hf : f.IsReadable) (hlen : f.types.length = ops.length)
    (hq : q ∈ f.rows ops) :
    ∃ p' : Placed, p'.content q.2.1.place = content {} q.2.1.place ∧
      (ofForm f ops).content q.2.1.place = (p'.putRow q).content q.2.1.place :=
  content_foldl_of_mem (rows_pairwise hf hlen) hq {}

variable (hf : f.IsReadable) (hlen : f.types.length = ops.length) (hq : q ∈ f.rows ops)
include hf hlen hq

lemma ofForm_opcode (hplace : q.2.1.place = .opcode) :
    (ofForm f ops).opcode = register? q.2.2 := by
  obtain ⟨p', -, h⟩ := content_ofForm hf hlen hq
  rw [hplace] at h
  have hfield := congrArg Placed.opcode h
  simpa [content, Place.field, putRow, put, hplace] using hfield

lemma ofForm_reg (hplace : q.2.1.place = .reg) : (ofForm f ops).reg = register? q.2.2 := by
  obtain ⟨p', -, h⟩ := content_ofForm hf hlen hq
  rw [hplace] at h
  have hfield := congrArg Placed.reg h
  simpa [content, Place.field, putRow, put, hplace] using hfield

lemma ofForm_rm (hplace : q.2.1.place = .rm) : (ofForm f ops).rm = some q.2.2 := by
  obtain ⟨p', -, h⟩ := content_ofForm hf hlen hq
  rw [hplace] at h
  have hfield := congrArg Placed.rm h
  simpa [content, Place.field, putRow, put, hplace] using hfield

lemma ofForm_vvvv (hplace : q.2.1.place = .vvvv) : (ofForm f ops).vvvv = register? q.2.2 := by
  obtain ⟨p', -, h⟩ := content_ofForm hf hlen hq
  rw [hplace] at h
  have hfield := congrArg Placed.vvvv h
  simpa [content, Place.field, putRow, put, hplace] using hfield

/-- The bytes behind the code are those of the row for them alone. -/
lemma ofForm_imm_of_field (hfield : q.2.1.place.field = .imm) :
    (ofForm f ops).imm = (({} : Placed).putRow q).imm := by
  obtain ⟨p', hp', h⟩ := content_ofForm hf hlen hq
  simp only [content, hfield] at hp' h
  have hempty : p'.imm = [] := congrArg Placed.imm hp'
  have hbytes : (ofForm f ops).imm = (p'.putRow q).imm := (congrArg Placed.imm h :)
  rw [hbytes]
  cases hplace : q.2.1.place <;> simp_all [Place.field, putRow, put]

lemma ofForm_imm (hplace : q.2.1.place = .imm) : (ofForm f ops).imm = immBytes q.1 q.2.2 := by
  rw [ofForm_imm_of_field hf hlen hq (by rw [hplace]; rfl)]
  simp [putRow, put, hplace]

lemma ofForm_immRegister (hplace : q.2.1.place = .immRegister) :
    (ofForm f ops).imm = [UInt8.ofNat (16 * ((register? q.2.2).map (·.number)).getD 0)] := by
  rw [ofForm_imm_of_field hf hlen hq (by rw [hplace]; rfl)]
  simp [putRow, put, hplace]

omit hf hlen in
/-- A register in its place that needs an extension byte is noted. -/
lemma ofForm_needsRex (hplace : q.2.1.place.holdsRegister = true) (hneeds : needs q.2.2 = true) :
    (ofForm f ops).needsRex = true :=
  needsRex_foldl_of_mem hq (by rw [hplace, hneeds, Bool.and_self]) {}

end Placed

/-- A place that no operand has. -/
lemma ne_of_hasPlace_eq_false {place : Place} {slots : List Slot} (h : hasPlace place slots = false)
    {s : Slot} (hs : s ∈ slots) : s.place ≠ place := by
  rw [hasPlace, List.any_eq_false] at h
  simpa using h s hs

namespace Placed

variable {f : Form} (ops : List Operand)

/-- A field without an operand is empty. -/
lemma content_ofForm_of_not (place : Place)
    (h : ∀ s ∈ f.slots, s.place = .implied ∨ s.place.field ≠ place.field) :
    (ofForm f ops).content place = content {} place :=
  content_foldl_of_forall_ne {} fun _ hq => h _ (mem_slots_of_mem_rows hq)

/-- A place of which the field has no other one is apart from different places. -/
lemma field_ne {own place : Place} (h : own ≠ place) (hplace : place ≠ .imm)
    (hplace' : place ≠ .immRegister) : own.field ≠ place.field := by
  cases own <;> cases place <;> simp_all [Place.field]

lemma ofForm_rm_eq_none (h : hasPlace .rm f.slots = false) : (ofForm f ops).rm = none :=
  congrArg Placed.rm (content_ofForm_of_not ops .rm fun _ hs =>
    .inr (field_ne (ne_of_hasPlace_eq_false h hs) (by decide) (by decide)))

lemma ofForm_reg_eq_none (h : hasPlace .reg f.slots = false) : (ofForm f ops).reg = none :=
  congrArg Placed.reg (content_ofForm_of_not ops .reg fun _ hs =>
    .inr (field_ne (ne_of_hasPlace_eq_false h hs) (by decide) (by decide)))

lemma ofForm_opcode_eq_none (h : hasPlace .opcode f.slots = false) :
    (ofForm f ops).opcode = none :=
  congrArg Placed.opcode (content_ofForm_of_not ops .opcode fun _ hs =>
    .inr (field_ne (ne_of_hasPlace_eq_false h hs) (by decide) (by decide)))

/-- The low bits of the opcode are those of an operand, if it holds one. -/
lemma low_mem_lowBits (f : Form) (ops : List Operand) :
    ((ofForm f ops).opcode.map (·.low)).getD 0 ∈ f.lowBits := by
  rw [Form.mem_lowBits]
  cases hop : hasPlace .opcode f.slots with
  | true => exact .inl rfl
  | false =>
    rw [ofForm_opcode_eq_none ops hop]
    exact .inr rfl

lemma ofForm_imm_eq_nil (h : hasImmediate f.slots = false) : (ofForm f ops).imm = [] := by
  rw [hasImmediate, Bool.or_eq_false_iff] at h
  refine congrArg Placed.imm (content_ofForm_of_not ops .imm fun s hs => .inr ?_)
  have himm := ne_of_hasPlace_eq_false h.1 hs
  have hreg := ne_of_hasPlace_eq_false h.2 hs
  cases hs : s.place <;> simp_all [Place.field]

end Placed

end AsmBridge
