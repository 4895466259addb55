import AsmBridge.Encoding.MachineCode
import Mathlib.Data.Int.Notation
import Mathlib.Tactic.Common

/-!
# Reading machine code

A reader that knows the opcode of an instruction and the places of its operands splits the bytes
into their fields again. Each field has a lemma that says the reader recovers it with nothing left
over but what follows; `MachineCode.read_bytes` puts them together for every code that is laid out
as the opcode asks (`MachineCode.IsLaidOut`).
-/

namespace AsmBridge

/-! ## Fields of one byte -/

/-- The extension byte with the given bits. -/
def Rex.ofByte (b : UInt8) : Rex :=
  { w := b.toNat.testBit 3, ext := ⟨b.toNat.testBit 2, b.toNat.testBit 1, b.toNat.testBit 0⟩ }

/-- The fields of a ModR/M byte. -/
def ModRM.ofByte (b : UInt8) : ModRM :=
  { mode := Fin.ofNat 4 (b.toNat / 64), reg := Fin.ofNat 8 (b.toNat / 8),
    rm := Fin.ofNat 8 b.toNat }

/-- The fields of a SIB byte. -/
def Sib.ofByte (b : UInt8) : Sib :=
  { scale := Fin.ofNat 4 (b.toNat / 64), index := Fin.ofNat 8 (b.toNat / 8),
    base := Fin.ofNat 8 b.toNat }

/-- The fields of the second byte of a short VEX prefix. -/
def Vex.ofShort (b : UInt8) : Vex :=
  { spec := ⟨0, b.toNat / 4 % 2, b.toNat % 4, 1⟩
    ext := { r := !b.toNat.testBit 7 }
    v := 15 - b.toNat / 8 % 16 }

/-- The fields of the second and the third byte of a long VEX prefix. -/
def Vex.ofLong (a b : UInt8) : Vex :=
  { spec := ⟨b.toNat / 128, b.toNat / 4 % 2, b.toNat % 4, a.toNat % 32⟩
    ext := ⟨!a.toNat.testBit 7, !a.toNat.testBit 6, !a.toNat.testBit 5⟩
    v := 15 - b.toNat / 8 % 16 }

/-- The fields of a VEX prefix keep to their bits. -/
structure VexSpec.IsBounded (s : VexSpec) : Prop where
  w_lt : s.w < 2
  l_lt : s.l < 2
  pp_lt : s.pp < 4
  m_lt : s.m < 32

lemma Rex.ofByte_byte (x : Rex) : Rex.ofByte x.byte = x := by
  obtain ⟨w, ⟨r, x, b⟩⟩ := x
  revert w r x b
  decide

/-- An extension byte is one of sixteen. -/
lemma Rex.byte_div (x : Rex) : x.byte.toNat / 16 = 4 := by
  obtain ⟨w, ⟨r, x, b⟩⟩ := x
  revert w r x b
  decide

/-- A byte of three fields gives them back. -/
lemma fields_of_byte (a : Fin 4) (b c : Fin 8) :
    Fin.ofNat 4 ((UInt8.ofNat (64 * a.val + 8 * b.val + c.val)).toNat / 64) = a ∧
      Fin.ofNat 8 ((UInt8.ofNat (64 * a.val + 8 * b.val + c.val)).toNat / 8) = b ∧
      Fin.ofNat 8 (UInt8.ofNat (64 * a.val + 8 * b.val + c.val)).toNat = c := by
  have hbyte : (UInt8.ofNat (64 * a.val + 8 * b.val + c.val)).toNat =
      64 * a.val + 8 * b.val + c.val := by
    rw [UInt8.toNat_ofNat']
    omega
  rw [hbyte]
  refine ⟨?_, ?_, ?_⟩
  all_goals
    apply Fin.ext
    rw [Fin.val_ofNat]
    omega

lemma ModRM.ofByte_byte (m : ModRM) : ModRM.ofByte m.byte = m := by
  obtain ⟨mode, reg, rm⟩ := m
  simp only [ModRM.ofByte, ModRM.byte, fields_of_byte mode reg rm]

lemma Sib.ofByte_byte (s : Sib) : Sib.ofByte s.byte = s := by
  obtain ⟨scale, index, base⟩ := s
  simp only [Sib.ofByte, Sib.byte, fields_of_byte scale index base]

/-- The second byte of a short VEX prefix gives its fields back. -/
lemma Vex.ofShort_byte : ∀ (r : Bool) (v : Fin 16) (l : Fin 2) (pp : Fin 4),
    Vex.ofShort (UInt8.ofNat (Vex.inverted 7 r ||| (15 - v.val % 16) <<< 3 ||| l.val <<< 2 |||
      pp.val)) = ⟨⟨0, l, pp, 1⟩, ⟨r, false, false⟩, v⟩ := by
  decide

/-- The last two bytes of a long VEX prefix give its fields back. -/
lemma Vex.ofLong_bytes (a b : UInt8) (e : Extension) (m : Fin 32) (w : Fin 2) (v : Fin 16)
    (l : Fin 2) (pp : Fin 4)
    (ha : a = UInt8.ofNat (Vex.inverted 7 e.r ||| Vex.inverted 6 e.x ||| Vex.inverted 5 e.b |||
      m.val))
    (hb : b = UInt8.ofNat (w.val <<< 7 ||| (15 - v.val % 16) <<< 3 ||| l.val <<< 2 ||| pp.val)) :
    Vex.ofLong a b = ⟨⟨w, l, pp, m⟩, e, v⟩ := by
  have hfirst : ∀ (r x b : Bool) (m : Fin 32),
      let a := UInt8.ofNat (Vex.inverted 7 r ||| Vex.inverted 6 x ||| Vex.inverted 5 b ||| m.val)
      a.toNat % 32 = m ∧ (!a.toNat.testBit 7) = r ∧ (!a.toNat.testBit 6) = x ∧
        (!a.toNat.testBit 5) = b := by
    decide
  have hlast : ∀ (w : Fin 2) (v : Fin 16) (l : Fin 2) (pp : Fin 4),
      let b := UInt8.ofNat (w.val <<< 7 ||| (15 - v.val % 16) <<< 3 ||| l.val <<< 2 ||| pp.val)
      b.toNat / 128 = w ∧ b.toNat / 4 % 2 = l ∧ b.toNat % 4 = pp ∧
        15 - b.toNat / 8 % 16 = v := by
    decide
  obtain ⟨hm, hr, hx, he⟩ := hfirst e.r e.x e.b m
  obtain ⟨hw, hl, hpp, hv⟩ := hlast w v l pp
  subst ha hb
  simp only [Vex.ofLong, hm, hr, hx, he, hw, hl, hpp, hv]

/-! ## What stands before the opcode -/

/-- The operand-size override, where the opcode admits one. -/
def readOverride (spec : OpcodeSpec) : List UInt8 → Bool × List UInt8
  | [] => (false, [])
  | b :: bs =>
    if spec.vex.isNone && spec.mandatory.isNone && b == 0x66 then (true, bs) else (false, b :: bs)

/-- The extension byte, if there is one. -/
def readRex : List UInt8 → Option Rex × List UInt8
  | [] => (none, [])
  | b :: bs => if b.toNat / 16 = 4 then (some (.ofByte b), bs) else (none, b :: bs)

/-- The VEX prefix in either form. -/
def readVex : List UInt8 → Option (Vex × List UInt8)
  | 0xc5 :: b :: bs => some (.ofShort b, bs)
  | 0xc4 :: a :: b :: bs => some (.ofLong a b, bs)
  | _ => none

/-- The bytes before the opcode: the mandatory prefix of the opcode and an extension byte, or a VEX
prefix. -/
def readLead (spec : OpcodeSpec) (bs : List UInt8) : Option (CodeLead × List UInt8) :=
  match spec.vex with
  | some _ => (readVex bs).map fun q => (.vex q.1, q.2)
  | none =>
    let mandatory := spec.mandatory.toList
    if mandatory.isPrefixOf bs then
      let q := readRex (bs.drop mandatory.length)
      some (.legacy spec.mandatory q.1, q.2)
    else none

/-- The fourth bits of the register numbers that stand before the opcode. -/
def CodeLead.ext : CodeLead → Extension
  | .legacy _ rex => (rex.map (·.ext)).getD {}
  | .vex p => p.ext

/-- There is an extension byte. -/
def CodeLead.hasRex : CodeLead → Bool
  | .legacy _ rex => rex.isSome
  | .vex _ => false

lemma readVex_bytes {p : Vex} (hspec : p.spec.IsBounded) (hv : p.v < 16) (rest : List UInt8) :
    readVex (p.bytes ++ rest) = some (p, rest) := by
  obtain ⟨⟨w, l, pp, m⟩, ⟨r, x, b⟩, v⟩ := p
  obtain ⟨hw, hl, hpp, hm⟩ := hspec
  dsimp only at hw hl hpp hm hv
  unfold Vex.bytes Vex.values
  dsimp only
  split
  · rename_i hshort
    simp only [Vex.isShort, Bool.and_eq_true, Bool.not_eq_true', beq_iff_eq] at hshort
    obtain ⟨⟨⟨rfl, rfl⟩, rfl⟩, rfl⟩ := hshort
    have hbyte := Vex.ofShort_byte r ⟨v, hv⟩ ⟨l, hl⟩ ⟨pp, hpp⟩
    exact congrArg (fun q => some (q, rest)) hbyte
  · have hbytes := Vex.ofLong_bytes _ _ ⟨r, x, b⟩ ⟨m, hm⟩ ⟨w, hw⟩ ⟨v, hv⟩ ⟨l, hl⟩ ⟨pp, hpp⟩ rfl rfl
    exact congrArg (fun q => some (q, rest)) hbytes

/-- An extension byte is read off, and a byte that is none stays. -/
lemma readRex_bytes (rex : Option Rex) {b : UInt8} (hb : b.toNat / 16 ≠ 4) (rest : List UInt8) :
    readRex ((rex.map (·.byte)).toList ++ b :: rest) = (rex, b :: rest) := by
  cases rex with
  | none => simp [readRex, hb]
  | some x => simp [readRex, Rex.byte_div, Rex.ofByte_byte]

/-! ## ModR/M and what follows it -/

/-- The size of the displacement that ModR/M and SIB announce. -/
def dispSize (m : ModRM) (sib : Option Sib) : ℕ :=
  match m.mode with
  | 0 => if (sib.map (·.base)).getD m.rm = ModRM.dispOnly then 4 else 0
  | 1 => 1
  | 2 => 4
  | 3 => 0

/-- ModR/M announces a SIB byte. -/
def ModRM.hasSib (m : ModRM) : Bool := m.mode != ModRM.direct && m.rm == ModRM.sibFollows

/-- The displacement behind ModR/M and SIB. -/
def readDisp (ext : Extension) (m : ModRM) (sib : Option Sib) (bs : List UInt8) :
    Option (AddressCode × List UInt8) :=
  let n := dispSize m sib
  if n ≤ bs.length then some (⟨ext, m, sib, bs.take n⟩, bs.drop n) else none

/-- An operand in an instruction word. -/
def readAddress (ext : Extension) : List UInt8 → Option (AddressCode × List UInt8)
  | [] => none
  | b :: bs =>
    let m := ModRM.ofByte b
    if m.hasSib then
      match bs with
      | [] => none
      | c :: bs => readDisp ext m (some (.ofByte c)) bs
    else readDisp ext m none bs

/-- The parts of an operand are there as ModR/M announces them. -/
structure AddressCode.IsLaidOut (c : AddressCode) : Prop where
  sib_eq : c.sib.isSome = c.modrm.hasSib
  disp_length : c.disp.length = dispSize c.modrm c.sib

lemma readDisp_append {c : AddressCode} (h : c.IsLaidOut) (rest : List UInt8) :
    readDisp c.ext c.modrm c.sib (c.disp ++ rest) = some (c, rest) := by
  unfold readDisp
  dsimp only
  rw [← h.disp_length, if_pos (by simp), List.take_left, List.drop_left]

lemma readAddress_bytes {c : AddressCode} (h : c.IsLaidOut) (rest : List UInt8) :
    readAddress c.ext (c.bytes ++ rest) = some (c, rest) := by
  have hsib := h.sib_eq
  have hread := readDisp_append h rest
  unfold AddressCode.bytes
  cases hs : c.sib with
  | none =>
    rw [hs] at hsib hread
    simp only [Option.map_none, Option.toList_none, List.append_nil, List.cons_append,
      List.nil_append, readAddress, ModRM.ofByte_byte]
    rw [← hsib]
    exact hread
  | some sib =>
    rw [hs] at hsib hread
    simp only [Option.map_some, Option.toList_some, List.cons_append, List.nil_append, readAddress,
      ModRM.ofByte_byte, Sib.ofByte_byte]
    rw [← hsib]
    exact hread

/-! ## The whole code -/

/-- Some operand has the place. -/
def hasPlace (place : Place) (slots : List Slot) : Bool := slots.any (·.place == place)

/-- Some operand is in the immediate bytes. -/
def hasImmediate (slots : List Slot) : Bool := hasPlace .imm slots || hasPlace .immRegister slots

/-- The operand field, if some operand has its place there. -/
def readOperandField (slots : List Slot) (ext : Extension) (bs : List UInt8) :
    Option (Option AddressCode × List UInt8) :=
  if hasPlace .rm slots then (readAddress ext bs).map fun q => (some q.1, q.2) else some (none, bs)

/-- The fields of an instruction without a source mark, from its bytes, its opcode and the places of
its operands. Bytes that are left over must be those of an immediate. -/
def MachineCode.read (spec : OpcodeSpec) (slots : List Slot) (bytes : List UInt8) :
    Option MachineCode := do
  let (override, bs) := readOverride spec bytes
  let (lead, bs) ← readLead spec bs
  let n := spec.opcode.length
  if bs.length < n then none
  else
    let (address, imm) ← readOperandField slots lead.ext (bs.drop n)
    if !imm.isEmpty && !hasImmediate slots then none
    else return ⟨none, override, lead, bs.take n, address, imm⟩

/-- The code is laid out as the opcode and the places of the operands ask. -/
structure MachineCode.IsLaidOut (spec : OpcodeSpec) (slots : List Slot) (c : MachineCode) :
    Prop where
  mark : c.mark = none
  sizeOverride : c.sizeOverride = true → spec.vex = none ∧ spec.mandatory = none
  legacy : spec.vex = none → ∃ rex, c.lead = .legacy spec.mandatory rex
  vex : ∀ v, spec.vex = some v → v.IsBounded ∧ ∃ p, c.lead = .vex p ∧ p.spec = v ∧ p.v < 16
  opcode_length : c.opcode.length = spec.opcode.length
  /-- Without VEX the opcode cannot be taken for a prefix. -/
  opcode_head : spec.vex = none → ∃ b bs, c.opcode = b :: bs ∧ b.toNat / 16 ≠ 4 ∧ b ≠ 0x66
  address_isSome : c.address.isSome = hasPlace .rm slots
  address : ∀ a ∈ c.address, a.IsLaidOut ∧ a.ext = c.lead.ext
  imm : c.imm ≠ [] → hasImmediate slots = true

namespace MachineCode

variable {spec : OpcodeSpec} {slots : List Slot} {c : MachineCode}

/-- The lead of a code is read off. -/
lemma readLead_bytes (h : c.IsLaidOut spec slots) (rest : List UInt8) :
    readLead spec (c.lead.bytes ++ (c.opcode ++ rest)) = some (c.lead, c.opcode ++ rest) := by
  cases hv : spec.vex with
  | none =>
    obtain ⟨b, bs, hop, hrex, -⟩ := h.opcode_head hv
    obtain ⟨rex, hlead⟩ := h.legacy hv
    have hread := readRex_bytes rex hrex (bs ++ rest)
    have hmandatory : spec.mandatory.toList.isPrefixOf (spec.mandatory.toList ++
        ((rex.map (·.byte)).toList ++ b :: (bs ++ rest))) = true :=
      List.isPrefixOf_iff_prefix.mpr (List.prefix_append _ _)
    rw [hlead, readLead, hv, CodeLead.bytes, hop, List.append_assoc, List.cons_append]
    dsimp only
    rw [if_pos hmandatory, List.drop_left, hread]
  | some v =>
    obtain ⟨hbounded, p, hlead, rfl, hlt⟩ := h.vex v hv
    rw [hlead, readLead, hv, CodeLead.bytes]
    dsimp only
    rw [readVex_bytes hbounded hlt, Option.map_some]

/-- The override of a code is read off. -/
lemma readOverride_bytes (h : c.IsLaidOut spec slots) (rest : List UInt8) :
    readOverride spec ((if c.sizeOverride then [0x66] else []) ++ (c.lead.bytes ++
      (c.opcode ++ rest))) = (c.sizeOverride, c.lead.bytes ++ (c.opcode ++ rest)) := by
  cases hs : c.sizeOverride with
  | true =>
    obtain ⟨hv, hm⟩ := h.sizeOverride hs
    simp [readOverride, hv, hm]
  | false =>
    -- Without an override the first byte is that of a prefix, an extension byte or the opcode.
    by_cases hspec : spec.vex.isNone && spec.mandatory.isNone
    · obtain ⟨hv, hm⟩ : spec.vex = none ∧ spec.mandatory = none := by simpa using hspec
      obtain ⟨rex, hlead⟩ := h.legacy hv
      obtain ⟨b, bs, hop, -, hne⟩ := h.opcode_head hv
      cases rex with
      | none => simp [hlead, hm, hop, CodeLead.bytes, readOverride, hne]
      | some x =>
        have hx : x.byte ≠ 0x66 := by
          intro heq
          have hdiv := x.byte_div
          rw [heq] at hdiv
          exact absurd hdiv (by decide)
        simp [hlead, hm, CodeLead.bytes, readOverride, hx]
    · cases hbytes : c.lead.bytes ++ (c.opcode ++ rest) with
      | nil => simp [readOverride]
      | cons b bs => simp [readOverride, Bool.eq_false_iff.mpr hspec]

/-- The operand field of a code is read off. -/
lemma readOperandField_bytes (h : c.IsLaidOut spec slots) :
    readOperandField slots c.lead.ext ((c.address.map (·.bytes)).getD [] ++ c.imm) =
      some (c.address, c.imm) := by
  have hsome := h.address_isSome
  cases ha : c.address with
  | none =>
    rw [ha, Option.isSome_none] at hsome
    rw [readOperandField, ← hsome]
    rfl
  | some a =>
    rw [ha, Option.isSome_some] at hsome
    obtain ⟨hlaid, hext⟩ := h.address a ha
    have hread := readAddress_bytes hlaid c.imm
    rw [hext] at hread
    rw [readOperandField, ← hsome, if_pos rfl, Option.map_some, Option.getD_some, hread,
      Option.map_some]

/-- The fields of a code that is laid out as its opcode asks are read back, with nothing left
over. -/
theorem read_bytes (h : c.IsLaidOut spec slots) : read spec slots c.bytes = some c := by
  have hmark := h.mark
  have hlen := h.opcode_length
  let rest := (c.address.map (·.bytes)).getD [] ++ c.imm
  have hbytes : c.bytes = (if c.sizeOverride then [0x66] else []) ++ (c.lead.bytes ++
      (c.opcode ++ rest)) := by
    simp [bytes, rest, hmark]
  have hlt : ¬ (c.opcode ++ rest).length < c.opcode.length := by simp
  have himm : ¬ (!c.imm.isEmpty && !hasImmediate slots) = true := by
    rw [Bool.and_eq_true, Bool.not_eq_true', Bool.not_eq_true', List.isEmpty_eq_false_iff]
    rintro ⟨hne, hno⟩
    exact absurd (h.imm hne) (hno ▸ Bool.false_ne_true)
  rw [hbytes, read, readOverride_bytes h rest]
  dsimp only
  rw [readLead_bytes h rest]
  dsimp only [Option.bind_eq_bind, Option.bind_some]
  rw [← hlen, if_neg hlt, List.take_left, List.drop_left, readOperandField_bytes h]
  dsimp only [Option.bind_some]
  rw [if_neg himm, ← hmark]
  rfl

end MachineCode

end AsmBridge
