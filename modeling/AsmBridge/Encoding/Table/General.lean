import AsmBridge.Encoding.Table.Row

/-!
# General-purpose instructions

Moves, arithmetic, shifts, bit scans and the conditional moves and sets, with their forms in the
order in which assemblers prefer them: short accumulator forms and sign-extended bytes first, and
the store form of a move between registers.
-/

namespace AsmBridge.Table

/-- Store order: ModR/M operand, register. -/
def storeSlots : List Slot := [rmW, regR]

/-- Load order: register, ModR/M operand. -/
def loadSlots : List Slot := [regW, rmR]

/-- Load order with a register that is also read. -/
def updateSlots : List Slot := [regRW, rmR]

def pushForms : List Form := [
  row [r64] (op [0x50]).rd [opcodeR],
  row [rm64] ((op [0xff]).ext 6) [rmR],
  row [r16] (op [0x50]).rw [opcodeR],
  row [imm8] (op [0x6a]).ib [immR],
  row [imm32] (op [0x68]).id [immR]]

def popForms : List Form := [
  row [r64] (op [0x58]).rd [opcodeW],
  row [rm64] ((op [0x8f]).ext 0) [rmW],
  row [r16] (op [0x58]).rw [opcodeW]]

def movForms : List Form := [
  row [rm8, r8] (op [0x88]).r storeSlots,
  row [rm16, r16] (op [0x89]).r storeSlots,
  row [rm32, r32] (op [0x89]).r storeSlots,
  row [rm64, r64] (opW [0x89]).r storeSlots,
  row [r8, rm8] (op [0x8a]).r loadSlots,
  row [r16, rm16] (op [0x8b]).r loadSlots,
  row [r32, rm32] (op [0x8b]).r loadSlots,
  row [r64, rm64] (opW [0x8b]).r loadSlots,
  row [r8, imm8] (op [0xb0]).rb.ib [opcodeW, immR],
  row [r16, imm16] (op [0xb8]).rw.iw [opcodeW, immR],
  row [r32, imm32] (op [0xb8]).rd.id [opcodeW, immR],
  row [rm8, imm8] ((op [0xc6]).ext 0).ib [rmW, immR],
  row [rm16, imm16] ((op [0xc7]).ext 0).iw [rmW, immR],
  row [rm32, imm32] ((op [0xc7]).ext 0).id [rmW, immR],
  row [rm64, imm32] ((opW [0xc7]).ext 0).id [rmW, immR],
  row [r64, imm64] (opW [0xb8]).rq.io [opcodeW, immR]]

def leaForms : List Form := [
  row [r16, anyMem] (op [0x8d]).r loadSlots,
  row [r32, anyMem] (op [0x8d]).r loadSlots,
  row [r64, anyMem] (opW [0x8d]).r loadSlots]

/-- A move that widens a byte or a word. -/
def widenForms (ofByte ofWord : UInt8) : List Form := [
  row [r16, rm8] (op [0x0f, ofByte]).r loadSlots,
  row [r32, rm8] (op [0x0f, ofByte]).r loadSlots,
  row [r64, rm8] (opW [0x0f, ofByte]).r loadSlots,
  row [r32, rm16] (op [0x0f, ofWord]).r loadSlots,
  row [r64, rm16] (opW [0x0f, ofWord]).r loadSlots]

/-- The form of an exchange with `eax`, which does not take `eax` itself: its code would be that
of `nop`, which keeps the upper half of `rax`. -/
def exchangeEax (types : List OperandType) (slots : List Slot) : Form :=
  { types := types, opcode := (op [0x90]).rd, slots := slots,
    barred := some [.reg (.gp .w32 0), .reg (.gp .w32 0)] }

def xchgForms : List Form := [
  row [rax, r64] (opW [0x90]).rd [impliedRW, opcodeRW],
  row [r64, rax] (opW [0x90]).rd [opcodeRW, impliedRW],
  exchangeEax [eax, r32] [impliedRW, opcodeRW],
  exchangeEax [r32, eax] [opcodeRW, impliedRW],
  row [rm8, r8] (op [0x86]).r [rmRW, regRW],
  row [rm16, r16] (op [0x87]).r [rmRW, regRW],
  row [rm32, r32] (op [0x87]).r [rmRW, regRW],
  row [rm64, r64] (opW [0x87]).r [rmRW, regRW],
  row [r8, rm8] (op [0x86]).r [regRW, rmRW],
  row [r16, rm16] (op [0x87]).r [regRW, rmRW],
  row [r32, rm32] (op [0x87]).r [regRW, rmRW],
  row [r64, rm64] (opW [0x87]).r [regRW, rmRW]]

def nopForms : List Form := [
  row [] (op [0x90]) [],
  row [rm16] ((op [0x0f, 0x1f]).ext 0) [rmR],
  row [rm32] ((op [0x0f, 0x1f]).ext 0) [rmR]]

/-- One of the eight classic two-operand operations, which have consecutive numbers. -/
def aluForms (n : Fin 8) : List Form :=
  let base := UInt8.ofNat (8 * n.val)
  let accumulator := [impliedRW, immR]
  let immediate := [rmRW, immR]
  let store := [rmRW, regR]
  [row [al, imm8] (op [base + 4]).ib accumulator,
    row [rm8, imm8] ((op [0x80]).ext n).ib immediate,
    row [rm16, imm8] ((op [0x83]).ext n).ib immediate,
    row [rm32, imm8] ((op [0x83]).ext n).ib immediate,
    row [rm64, imm8] ((opW [0x83]).ext n).ib immediate,
    row [ax, imm16] (op [base + 5]).iw accumulator,
    row [eax, imm32] (op [base + 5]).id accumulator,
    row [rax, imm32] (opW [base + 5]).id accumulator,
    row [rm16, imm16] ((op [0x81]).ext n).iw immediate,
    row [rm32, imm32] ((op [0x81]).ext n).id immediate,
    row [rm64, imm32] ((opW [0x81]).ext n).id immediate,
    row [rm8, r8] (op [base]).r store,
    row [rm16, r16] (op [base + 1]).r store,
    row [rm32, r32] (op [base + 1]).r store,
    row [rm64, r64] (opW [base + 1]).r store,
    row [r8, rm8] (op [base + 2]).r updateSlots,
    row [r16, rm16] (op [base + 3]).r updateSlots,
    row [r32, rm32] (op [base + 3]).r updateSlots,
    row [r64, rm64] (opW [base + 3]).r updateSlots]

def testForms : List Form :=
  let accumulator := [impliedR, immR]
  let immediate := [rmR, immR]
  let store := [rmR, regR]
  [row [al, imm8] (op [0xa8]).ib accumulator,
    row [ax, imm16] (op [0xa9]).iw accumulator,
    row [eax, imm32] (op [0xa9]).id accumulator,
    row [rax, imm32] (opW [0xa9]).id accumulator,
    row [rm8, imm8] ((op [0xf6]).ext 0).ib immediate,
    row [rm16, imm16] ((op [0xf7]).ext 0).iw immediate,
    row [rm32, imm32] ((op [0xf7]).ext 0).id immediate,
    row [rm64, imm32] ((opW [0xf7]).ext 0).id immediate,
    row [rm8, r8] (op [0x84]).r store,
    row [rm16, r16] (op [0x85]).r store,
    row [rm32, r32] (op [0x85]).r store,
    row [rm64, r64] (opW [0x85]).r store]

/-- An operation on one operand, read and written. -/
def unaryForms (ofByte other : UInt8) (n : Fin 8) (slot : Slot) : List Form := [
  row [rm8] ((op [ofByte]).ext n) [slot],
  row [rm16] ((op [other]).ext n) [slot],
  row [rm32] ((op [other]).ext n) [slot],
  row [rm64] ((opW [other]).ext n) [slot]]

def imulForms : List Form :=
  let product := [regRW, rmR, immR]
  unaryForms 0xf6 0xf7 5 rmR ++
  [row [r16, rm16] (op [0x0f, 0xaf]).r updateSlots,
    row [r32, rm32] (op [0x0f, 0xaf]).r updateSlots,
    row [r64, rm64] (opW [0x0f, 0xaf]).r updateSlots,
    row [r16, rm16, imm8] (op [0x6b]).r.ib product,
    row [r32, rm32, imm8] (op [0x6b]).r.ib product,
    row [r64, rm64, imm8] (opW [0x6b]).r.ib product,
    row [r16, rm16, imm16] (op [0x69]).r.iw product,
    row [r32, rm32, imm32] (op [0x69]).r.id product,
    row [r64, rm64, imm32] (opW [0x69]).r.id product]

/-- A shift or rotation by one, by `cl`, or by an immediate byte. -/
def shiftForms (n : Fin 8) : List Form :=
  let byOne := [rmRW, impliedR]
  let byImm := [rmRW, immR]
  [row [rm8, .one] ((op [0xd0]).ext n) byOne,
    row [rm16, .one] ((op [0xd1]).ext n) byOne,
    row [rm32, .one] ((op [0xd1]).ext n) byOne,
    row [rm64, .one] ((opW [0xd1]).ext n) byOne,
    row [rm8, cl] ((op [0xd2]).ext n) byOne,
    row [rm16, cl] ((op [0xd3]).ext n) byOne,
    row [rm32, cl] ((op [0xd3]).ext n) byOne,
    row [rm64, cl] ((opW [0xd3]).ext n) byOne,
    row [rm8, imm8] ((op [0xc0]).ext n).ib byImm,
    row [rm16, imm8] ((op [0xc1]).ext n).ib byImm,
    row [rm32, imm8] ((op [0xc1]).ext n).ib byImm,
    row [rm64, imm8] ((opW [0xc1]).ext n).ib byImm]

/-- A register from an operand of its width. -/
def scanForms (bytes : List UInt8) (slots : List Slot) : List Form := [
  row [r16, rm16] (op bytes).r slots,
  row [r32, rm32] (op bytes).r slots,
  row [r64, rm64] (opW bytes).r slots]

def btForms : List Form := [
  row [rm32, r32] (op [0x0f, 0xa3]).r [rmR, regR],
  row [rm64, r64] (opW [0x0f, 0xa3]).r [rmR, regR],
  row [rm32, imm8] ((op [0x0f, 0xba]).ext 4).ib [rmR, immR],
  row [rm64, imm8] ((opW [0x0f, 0xba]).ext 4).ib [rmR, immR]]

/-- Instructions without operands. -/
def bareEntries : List Entry :=
  [("cqo", opW [0x99]), ("cdq", op [0x99]), ("cdqe", opW [0x98]), ("cwde", op [0x98]),
    ("ud2", op [0x0f, 0x0b]), ("int3", op [0xcc]), ("pause", op [0xf3, 0x90]),
    ("movsb", op [0xa4]), ("movsq", opW [0xa5]), ("stosb", op [0xaa]), ("stosd", op [0xab]),
    ("stosq", opW [0xab])].map fun p => ⟨p.1, [row [] p.2 []]⟩

/-- The conditions by suffix, with their numbers. -/
def conditions : List (String × UInt8) := [
  ("o", 0), ("no", 1), ("b", 2), ("c", 2), ("nae", 2), ("ae", 3), ("nb", 3), ("nc", 3), ("e", 4),
  ("z", 4), ("ne", 5), ("nz", 5), ("be", 6), ("na", 6), ("a", 7), ("nbe", 7), ("s", 8), ("ns", 9),
  ("p", 10), ("pe", 10), ("np", 11), ("po", 11), ("l", 12), ("nge", 12), ("ge", 13), ("nl", 13),
  ("le", 14), ("ng", 14), ("g", 15), ("nle", 15)]

/-- The conditional moves and the conditional sets of a byte. -/
def conditionalEntries : List Entry :=
  conditions.flatMap fun p => [
    ⟨"cmov" ++ p.1, scanForms [0x0f, 0x40 + p.2] updateSlots⟩,
    ⟨"set" ++ p.1, [row [rm8] ((op [0x0f, 0x90 + p.2]).ext 0) [rmW]]⟩]

def generalEntries : List Entry := [
  ⟨"push", pushForms⟩, ⟨"pop", popForms⟩, ⟨"mov", movForms⟩, ⟨"movabs", movForms⟩,
  ⟨"lea", leaForms⟩, ⟨"movzx", widenForms 0xb6 0xb7⟩, ⟨"movsx", widenForms 0xbe 0xbf⟩,
  ⟨"movsxd", [row [r64, rm32] (opW [0x63]).r loadSlots]⟩, ⟨"xchg", xchgForms⟩, ⟨"nop", nopForms⟩,
  ⟨"add", aluForms 0⟩, ⟨"or", aluForms 1⟩, ⟨"adc", aluForms 2⟩, ⟨"sbb", aluForms 3⟩,
  ⟨"and", aluForms 4⟩, ⟨"sub", aluForms 5⟩, ⟨"xor", aluForms 6⟩, ⟨"cmp", aluForms 7⟩,
  ⟨"test", testForms⟩,
  ⟨"inc", unaryForms 0xfe 0xff 0 rmRW⟩, ⟨"dec", unaryForms 0xfe 0xff 1 rmRW⟩,
  ⟨"not", unaryForms 0xf6 0xf7 2 rmRW⟩, ⟨"neg", unaryForms 0xf6 0xf7 3 rmRW⟩,
  ⟨"mul", unaryForms 0xf6 0xf7 4 rmRW⟩, ⟨"div", unaryForms 0xf6 0xf7 6 rmRW⟩,
  ⟨"idiv", unaryForms 0xf6 0xf7 7 rmRW⟩, ⟨"imul", imulForms⟩,
  ⟨"rol", shiftForms 0⟩, ⟨"ror", shiftForms 1⟩, ⟨"shl", shiftForms 4⟩, ⟨"sal", shiftForms 4⟩,
  ⟨"shr", shiftForms 5⟩, ⟨"sar", shiftForms 7⟩,
  ⟨"bsf", scanForms [0x0f, 0xbc] loadSlots⟩, ⟨"bsr", scanForms [0x0f, 0xbd] loadSlots⟩,
  ⟨"tzcnt", scanForms [0xf3, 0x0f, 0xbc] loadSlots⟩,
  ⟨"lzcnt", scanForms [0xf3, 0x0f, 0xbd] loadSlots⟩,
  ⟨"popcnt", scanForms [0xf3, 0x0f, 0xb8] loadSlots⟩, ⟨"bt", btForms⟩] ++
  bareEntries ++ conditionalEntries

end AsmBridge.Table
