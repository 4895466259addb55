import AsmBridge.Proofs.Encoding.Rows
import Mathlib.Data.List.Find

/-!
# Encoding and displacements

Whether operands have machine code does not depend on the displacement of an address behind a base,
as long as it fits its field: the form is chosen by classes and widths (`selectForm_of_sameShape`),
and the displacement only decides on the size of its field. Operands that differ in such
displacements are both encoded, or are refused with one error (`encode_of_alike`).
-/

namespace AsmBridge

/-- The operands are the same but for the displacement behind a base, which fits its field in
both. -/
inductive Operand.Alike : Operand → Operand → Prop
  | same (o : Operand) : Alike o o
  | rebased (q : Register) (bits : Option ℕ) {m n : ℤ} (hm : fitsSigned 32 m = true)
      (hn : fitsSigned 32 n = true) :
      Alike (.mem { base := some q, disp := m, bits := bits })
        (.mem { base := some q, disp := n, bits := bits })

/-- The operands are the same, or both are memory operands of one width. -/
inductive Operand.SameShape : Operand → Operand → Prop
  | same (o : Operand) : SameShape o o
  | mem {a a' : Address} (h : a.bits = a'.bits) : SameShape (.mem a) (.mem a')

lemma Operand.Alike.sameShape {o o' : Operand} (h : o.Alike o') : o.SameShape o' := by
  cases h with
  | same => exact .same _
  | rebased _ _ _ _ => exact .mem rfl

/-- Two computations fail with one error, or both of them yield a value, perhaps another one. -/
def EndAlike {ε α : Type} (x y : Except ε α) : Prop := x.map (fun _ => ()) = y.map (fun _ => ())

lemma EndAlike.ok_or_error {ε α : Type} {x y : Except ε α} (h : EndAlike x y) :
    (∃ a b, x = .ok a ∧ y = .ok b) ∨ ∃ e, x = .error e ∧ y = .error e := by
  cases x with
  | error e =>
    cases y with
    | error e' =>
      obtain rfl := Except.error.inj h
      exact .inr ⟨e, rfl, rfl⟩
    | ok b => cases h
  | ok a =>
    cases y with
    | error e' => cases h
    | ok b => exact .inl ⟨a, b, rfl, rfl⟩

/-- Computations that fail with one error or yield values with something in common, followed by such
as end alike for such values. -/
lemma EndAlike.bind {ε α β γ : Type} {x y : Except ε α} {g : α → γ} (h : x.map g = y.map g)
    {f f' : α → Except ε β} (hf : ∀ a b, g a = g b → EndAlike (f a) (f' b)) :
    EndAlike (x >>= f) (y >>= f') := by
  cases x with
  | error e =>
    cases y with
    | error e' =>
      obtain rfl := Except.error.inj h
      rfl
    | ok b => cases h
  | ok a =>
    cases y with
    | error e' => cases h
    | ok b => exact hf a b (Except.ok.inj h)

/-! ## What does without addresses -/

section SameShape

variable {ops ops' : List Operand} (h : List.Forall₂ Operand.SameShape ops ops')

include h

/-- What is told of memory operands by their width is the same for operands of the same shapes. -/
lemma map_of_sameShape {α : Type} {g : Operand → α}
    (hg : ∀ a a' : Address, a.bits = a'.bits → g (.mem a) = g (.mem a')) :
    ops.map g = ops'.map g := by
  induction h with
  | nil => rfl
  | cons ho _ ih =>
    rw [List.map_cons, List.map_cons, ih]
    cases ho with
    | same => rfl
    | mem hbits => rw [hg _ _ hbits]

lemma shapes_of_sameShape : shapes ops = shapes ops' := by
  have hmap := congrArg (List.mapM id) (map_of_sameShape h (g := Operand.shape)
    fun _ _ hbits => congrArg (fun bits => Except.ok (Shape.mem bits)) hbits)
  rwa [List.mapM_map, List.mapM_map] at hmap

lemma findSome?_of_sameShape {α : Type} {g : Operand → Option α}
    (hg : ∀ a a' : Address, a.bits = a'.bits → g (.mem a) = g (.mem a')) :
    ops.findSome? g = ops'.findSome? g := by
  have hmap := congrArg (List.findSome? id) (map_of_sameShape h hg)
  rwa [List.findSome?_map, List.findSome?_map] at hmap

lemma any_of_sameShape {g : Operand → Bool}
    (hg : ∀ a a' : Address, a.bits = a'.bits → g (.mem a) = g (.mem a')) :
    ops.any g = ops'.any g := by
  have hmap := congrArg (List.any · id) (map_of_sameShape h hg)
  rwa [List.any_map, List.any_map] at hmap

lemma operationBits?_of_sameShape : operationBits? ops = operationBits? ops' :=
  findSome?_of_sameShape h fun _ _ hbits => hbits

lemma findRegister?_of_sameShape (p : Register → Bool) :
    findRegister? p ops = findRegister? p ops' :=
  findSome?_of_sameShape h fun _ _ _ => rfl

lemma anyVector_of_sameShape : anyVector ops = anyVector ops' :=
  any_of_sameShape h fun _ _ _ => rfl

/-- Whether there are words for all widths depends on the widths only. -/
lemma any_isNone_of_sameShape : ops.any (·.text?.isNone) = ops'.any (·.text?.isNone) := by
  refine any_of_sameShape h fun a a' hbits => ?_
  rw [Operand.text?, Operand.text?, Address.text?, Address.text?, hbits]
  cases a'.bits with
  | none => rfl
  | some w =>
    dsimp only
    rw [Option.isNone_map, Option.isNone_map]

/-- Operands without an address are of the same shapes as themselves only. -/
lemma eq_of_sameShape (hops : ∀ o ∈ ops, o.address? = none) : ops = ops' := by
  induction h with
  | nil => rfl
  | cons ho _ ih =>
    obtain ⟨hfirst, hrest⟩ := List.forall_mem_cons.mp hops
    rw [ih hrest]
    cases ho with
    | same o => rfl
    | mem _ => cases hfirst

end SameShape

lemma Operand.SameShape.symm {o o' : Operand} (h : o.SameShape o') : o'.SameShape o := by
  cases h with
  | same => exact .same _
  | mem hbits => exact .mem hbits.symm

/-! ## The choice of a form -/

/-- Operands with an address are barred from no form. -/
def Form.BarsNoAddress (f : Form) : Prop := ∀ ops ∈ f.barred, ∀ o ∈ ops, o.address? = none

/-- The forms of the table bar no address. -/
lemma barsNoAddress_of_mem {entry : Table.Entry} (hentry : entry ∈ Table.entries) :
    ∀ f ∈ entry.forms, f.BarsNoAddress :=
  fun f hf => ((Table.isRegular entry hentry).form f hf).barred

/-- A type takes operands of the same shape equally well. -/
lemma OperandType.fit_of_sameShape {o o' : Operand} (h : o.SameShape o') (t : OperandType)
    (opBits : Option ℕ) (vector : Bool) (s : Shape) :
    t.fit opBits vector o s = t.fit opBits vector o' s := by
  cases h with
  | same => rfl
  | mem _ => cases t <;> rfl

section Select

variable {ops ops' : List Operand} (h : List.Forall₂ Operand.SameShape ops ops')

include h

/-- Types take operands of the same shapes equally well, one by one. -/
lemma map_fit_of_sameShape (types : List OperandType) (opBits : Option ℕ) (vector : Bool)
    (ss : List Shape) :
    (types.zip (ops.zip ss)).map (fun p => p.1.fit opBits vector p.2.1 p.2.2) =
      (types.zip (ops'.zip ss)).map fun p => p.1.fit opBits vector p.2.1 p.2.2 := by
  induction h generalizing types ss with
  | nil => rfl
  | cons ho _ ih =>
    cases types with
    | nil => rfl
    | cons t types =>
      cases ss with
      | nil => rfl
      | cons s ss =>
        simp only [List.zip_cons_cons, List.map_cons]
        rw [ih, OperandType.fit_of_sameShape ho]

/-- A form is barred for operands of the same shapes, or for none of them. -/
lemma barred_of_sameShape {f : Form} (hf : f.BarsNoAddress) :
    (f.barred == some ops) = (f.barred == some ops') := by
  rw [Bool.eq_iff_iff, beq_iff_eq, beq_iff_eq]
  constructor
  · intro hops
    rw [hops, eq_of_sameShape h (hf ops hops)]
  · intro hops
    rw [hops, eq_of_sameShape (h.flip.imp fun _ _ ho => ho.symm) (hf ops' hops)]

/-- A form suits operands of the same shapes equally well. -/
lemma fit_of_sameShape {f : Form} (hf : f.BarsNoAddress) (ss : List Shape) :
    f.fit ops ss = f.fit ops' ss := by
  unfold Form.fit
  rw [h.length_eq, barred_of_sameShape h hf, operationBits?_of_sameShape h, anyVector_of_sameShape h,
    map_fit_of_sameShape h]

/-- One form is chosen for operands of the same shapes, or none with one error. -/
lemma selectForm_of_sameShape {mnemonic : String} {forms : List Form}
    (hforms : ∀ f ∈ forms, f.BarsNoAddress) :
    selectForm mnemonic forms ops = selectForm mnemonic forms ops' := by
  have hpassed : ∀ (ss : List Shape) (fs : List Form), (∀ f ∈ fs, f.BarsNoAddress) →
      (fs.takeWhile fun f => f.fit ops ss != .yes) =
        fs.takeWhile fun f => f.fit ops' ss != .yes := by
    intro ss fs hfs
    induction fs with
    | nil => rfl
    | cons f fs ih =>
      obtain ⟨hf, hfs⟩ := List.forall_mem_cons.mp hfs
      rw [List.takeWhile_cons, List.takeWhile_cons, fit_of_sameShape h hf, ih hfs]
  have hfind : ∀ (ss : List Shape) (fit : Fit), (forms.find? fun f => f.fit ops ss == fit) =
      forms.find? fun f => f.fit ops' ss == fit := fun ss fit =>
    List.find?_congr fun f hf => by rw [fit_of_sameShape h (hforms f hf)]
  have hcompares : ∀ f : Form, f.compares ops = f.compares ops' := by
    intro f
    rw [Form.compares, Form.compares, h.length_eq]
  unfold selectForm
  simp only [shapes_of_sameShape h, hpassed _ _ hforms, any_isNone_of_sameShape h, hfind, hcompares]

end Select

/-! ## Filling in the form -/

namespace AddressCode

variable {field : RegField} {a : Address}

/-- A displacement that fits its field has a code. -/
lemma exists_dispField (low : Fin 8) {d : ℤ} (h : fitsSigned 32 d = true) :
    ∃ q, dispField low d = .ok q := by
  rw [dispField, disp32, if_pos h]
  split_ifs <;> exact ⟨_, rfl⟩

/-- The fourth bits of an address relative to the instruction pointer. -/
lemma ext_ofRip (hindex : a.index = none) (hd : fitsSigned 32 a.disp = true) :
    (ofRip field a).map (·.ext) = .ok { r := field.extended } := by
  rw [ofRip, hindex, disp32, if_pos hd]
  rfl

/-- The fourth bits of an address with a base and without an index. -/
lemma ext_ofBased (hindex : a.index = none) (hd : fitsSigned 32 a.disp = true) (base : Register) :
    (ofBased field base a).map (·.ext) = .ok { r := field.extended, b := base.extended } := by
  obtain ⟨⟨mode, disp⟩, hfield⟩ := exists_dispField base.low hd
  rw [ofBased, hfield, hindex]
  change Except.map _ (if _ then _ else _) = _
  split_ifs <;> rfl

/-- Operands that are alike have the same fourth bits of registers, or fail with one error. -/
lemma ext_of_alike {o o' : Operand} (h : o.Alike o') :
    (ofOperand field o).map (·.ext) = (ofOperand field o').map (·.ext) := by
  cases h with
  | same => rfl
  | @rebased q bits m n hm hn =>
    let a (d : ℤ) : Address := { base := some q, disp := d, bits := bits }
    have hwrong : ∀ d, (a d).wrongRegister? = Address.wrongRegister? { base := some q } :=
      fun _ => rfl
    have hrip : ∀ d, (a d).ripRelative = (q == .rip) := fun _ => rfl
    change (ofOperand field (.mem (a m))).map (·.ext) = (ofOperand field (.mem (a n))).map (·.ext)
    simp only [ofOperand, ofAddress, hwrong, hrip]
    cases Address.wrongRegister? { base := some q } with
    | some r => rfl
    | none =>
      cases q == .rip with
      | true => exact (ext_ofRip (a := a m) rfl hm).trans (ext_ofRip (a := a n) rfl hn).symm
      | false =>
        exact (ext_ofBased (a := a m) rfl hm q).trans (ext_ofBased (a := a n) rfl hn q).symm

end AddressCode

namespace Placed

/-- The places are the same but for the operand field, in which operands are alike. -/
def Alike (p p' : Placed) : Prop :=
  ∃ rm, p' = { p with rm := rm } ∧ Option.Rel Operand.Alike p.rm rm

/-- One operand more. -/
lemma Alike.put {p p' : Placed} (hp : p.Alike p') {o o' : Operand} (ho : o.Alike o')
    (t : OperandType) (s : Slot) : (p.put t s o).Alike (p'.put t s o') := by
  obtain ⟨rm, rfl, hrm⟩ := hp
  have hregister : register? o = register? o' := by cases ho <;> rfl
  have hneeds : needs o = needs o' := by cases ho <;> rfl
  have himm : immBytes t o = immBytes t o' := by
    cases ho with
    | same => rfl
    | rebased => cases t <;> rfl
  unfold Placed.put
  rw [hregister, hneeds, himm]
  cases s.place with
  | rm => exact ⟨some o', rfl, .some ho⟩
  | _ => exact ⟨rm, rfl, hrm⟩

/-- The places of operands that are alike. -/
lemma ofForm_alike {ops ops' : List Operand} (h : List.Forall₂ Operand.Alike ops ops') (f : Form) :
    (ofForm f ops).Alike (ofForm f ops') := by
  have hfold : ∀ (types : List OperandType) (slots : List Slot) (p p' : Placed), p.Alike p' →
      ((types.zip (slots.zip ops)).foldl (fun p q => p.put q.1 q.2.1 q.2.2) p).Alike
        ((types.zip (slots.zip ops')).foldl (fun p q => p.put q.1 q.2.1 q.2.2) p') := by
    induction h with
    | nil =>
      intro types slots p p' hp
      rw [List.zip_nil_right, List.zip_nil_right]
      exact hp
    | @cons o o' ops ops' ho _ ih =>
      intro types slots p p' hp
      cases types with
      | nil => exact hp
      | cons t types =>
        cases slots with
        | nil => exact hp
        | cons s slots => exact ih types slots _ _ (hp.put ho t s)
  exact hfold f.types f.slots {} {} ⟨none, rfl, .none⟩

end Placed

/-- Operands that are alike are filled into a form, or not, with one error. -/
lemma assemble_of_alike {ops ops' : List Operand} (h : List.Forall₂ Operand.Alike ops ops')
    (f : Form) (mark : Option String) :
    EndAlike (f.assemble mark ops) (f.assemble mark ops') := by
  have hshape := h.imp fun _ _ ho => Operand.Alike.sameShape ho
  obtain ⟨rm, hplaced, hrm⟩ := Placed.ofForm_alike h f
  have haddress : ∀ field,
      ((Placed.ofForm f ops).rm.mapM (AddressCode.ofOperand field)).map (·.map (·.ext)) =
        (rm.mapM (AddressCode.ofOperand field)).map (·.map (·.ext)) := by
    intro field
    generalize (Placed.ofForm f ops).rm = r at hrm
    cases hrm with
    | none => rfl
    | @some o o' ho =>
      have hext : (AddressCode.ofOperand field o).map (·.ext) =
          (AddressCode.ofOperand field o').map (·.ext) := AddressCode.ext_of_alike ho
      simp only [Option.mapM_some]
      cases hx : AddressCode.ofOperand field o <;> cases hy : AddressCode.ofOperand field o' <;>
        simp_all [Except.map]
  have hlead : ∀ ext, codeLead f.opcode.spec (Placed.ofForm f ops) ext ops =
      codeLead f.opcode.spec (Placed.ofForm f ops') ext ops' := by
    intro ext
    unfold codeLead
    rw [findRegister?_of_sameShape hshape, findRegister?_of_sameShape hshape, hplaced]
  unfold Form.assemble
  refine EndAlike.bind (g := id) (by rw [hplaced]) fun field field' hfield => ?_
  obtain rfl : field = field' := hfield
  refine EndAlike.bind (by rw [hplaced]; exact haddress field) fun address address' hext => ?_
  refine EndAlike.bind (g := id) rfl fun mark mark' _ => ?_
  refine EndAlike.bind (g := id) ?_ fun lead lead' _ => rfl
  rw [hlead, hplaced, hext]

/-- Operands that are alike are encoded alike: in both cases there is machine code, or the error is
the same. -/
theorem encode_of_alike {ops ops' : List Operand} (h : List.Forall₂ Operand.Alike ops ops')
    (mnemonic : String) (mark : Option String) :
    EndAlike (encode mnemonic mark ops) (encode mnemonic mark ops') := by
  have hfully : EndAlike (encodeFully mnemonic mark ops) (encodeFully mnemonic mark ops') := by
    unfold encodeFully
    cases hentry : Table.lookup? mnemonic with
    | none => rfl
    | some entry =>
      have hforms := barsNoAddress_of_mem (Table.mem_of_lookup? hentry)
      have hshape := h.imp fun _ _ ho => Operand.Alike.sameShape ho
      refine EndAlike.bind (g := id) (by rw [selectForm_of_sameShape hshape hforms])
        fun form form' hform => ?_
      obtain rfl : form = form' := hform
      exact EndAlike.bind (assemble_of_alike h form mark) fun code code' _ => rfl
  exact EndAlike.bind hfully fun _ _ _ => rfl

end AsmBridge
