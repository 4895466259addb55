import AsmBridge.Encoding.Table.Row

/-!
# Legacy vector instructions

The SSE instructions, which name two operands: the first is the destination and, except in moves,
conversions and a few others, a source too.
-/

namespace AsmBridge.Table

/-- Two-operand operations: opcode bytes and width of the second operand when it is a datum. -/
def sseOperations : List (String × List UInt8 × Nat) := [
  ("addps", [0x0f, 0x58], 128), ("addpd", [0x66, 0x0f, 0x58], 128),
  ("addss", [0xf3, 0x0f, 0x58], 32), ("addsd", [0xf2, 0x0f, 0x58], 64),
  ("mulps", [0x0f, 0x59], 128), ("mulpd", [0x66, 0x0f, 0x59], 128),
  ("mulss", [0xf3, 0x0f, 0x59], 32), ("mulsd", [0xf2, 0x0f, 0x59], 64),
  ("subps", [0x0f, 0x5c], 128), ("subpd", [0x66, 0x0f, 0x5c], 128),
  ("subss", [0xf3, 0x0f, 0x5c], 32), ("subsd", [0xf2, 0x0f, 0x5c], 64),
  ("divps", [0x0f, 0x5e], 128), ("divpd", [0x66, 0x0f, 0x5e], 128),
  ("divss", [0xf3, 0x0f, 0x5e], 32), ("divsd", [0xf2, 0x0f, 0x5e], 64),
  ("minps", [0x0f, 0x5d], 128), ("minpd", [0x66, 0x0f, 0x5d], 128),
  ("minss", [0xf3, 0x0f, 0x5d], 32), ("minsd", [0xf2, 0x0f, 0x5d], 64),
  ("maxps", [0x0f, 0x5f], 128), ("maxpd", [0x66, 0x0f, 0x5f], 128),
  ("maxss", [0xf3, 0x0f, 0x5f], 32), ("maxsd", [0xf2, 0x0f, 0x5f], 64),
  ("sqrtps", [0x0f, 0x51], 128), ("sqrtpd", [0x66, 0x0f, 0x51], 128),
  ("sqrtss", [0xf3, 0x0f, 0x51], 32), ("sqrtsd", [0xf2, 0x0f, 0x51], 64),
  ("andps", [0x0f, 0x54], 128), ("andpd", [0x66, 0x0f, 0x54], 128), ("andnps", [0x0f, 0x55], 128),
  ("andnpd", [0x66, 0x0f, 0x55], 128), ("orps", [0x0f, 0x56], 128),
  ("orpd", [0x66, 0x0f, 0x56], 128), ("xorps", [0x0f, 0x57], 128),
  ("xorpd", [0x66, 0x0f, 0x57], 128), ("unpcklps", [0x0f, 0x14], 128),
  ("unpckhps", [0x0f, 0x15], 128), ("unpcklpd", [0x66, 0x0f, 0x14], 128),
  ("unpckhpd", [0x66, 0x0f, 0x15], 128), ("cvtss2sd", [0xf3, 0x0f, 0x5a], 32),
  ("cvtsd2ss", [0xf2, 0x0f, 0x5a], 64), ("cvtdq2ps", [0x0f, 0x5b], 128),
  ("cvtps2dq", [0x66, 0x0f, 0x5b], 128), ("cvttps2dq", [0xf3, 0x0f, 0x5b], 128),
  ("ucomiss", [0x0f, 0x2e], 32), ("ucomisd", [0x66, 0x0f, 0x2e], 64), ("comiss", [0x0f, 0x2f], 32),
  ("comisd", [0x66, 0x0f, 0x2f], 64), ("paddb", [0x66, 0x0f, 0xfc], 128),
  ("paddw", [0x66, 0x0f, 0xfd], 128), ("paddd", [0x66, 0x0f, 0xfe], 128),
  ("paddq", [0x66, 0x0f, 0xd4], 128), ("psubb", [0x66, 0x0f, 0xf8], 128),
  ("psubw", [0x66, 0x0f, 0xf9], 128), ("psubd", [0x66, 0x0f, 0xfa], 128),
  ("psubq", [0x66, 0x0f, 0xfb], 128), ("pmullw", [0x66, 0x0f, 0xd5], 128),
  ("pmuludq", [0x66, 0x0f, 0xf4], 128), ("pmulld", [0x66, 0x0f, 0x38, 0x40], 128),
  ("pand", [0x66, 0x0f, 0xdb], 128), ("pandn", [0x66, 0x0f, 0xdf], 128),
  ("por", [0x66, 0x0f, 0xeb], 128), ("pxor", [0x66, 0x0f, 0xef], 128),
  ("pcmpeqb", [0x66, 0x0f, 0x74], 128), ("pcmpeqw", [0x66, 0x0f, 0x75], 128),
  ("pcmpeqd", [0x66, 0x0f, 0x76], 128), ("pcmpgtd", [0x66, 0x0f, 0x66], 128),
  ("pmaxsd", [0x66, 0x0f, 0x38, 0x3d], 128), ("pminsd", [0x66, 0x0f, 0x38, 0x39], 128),
  ("pshufb", [0x66, 0x0f, 0x38, 0x00], 128), ("punpckldq", [0x66, 0x0f, 0x62], 128),
  ("punpckhdq", [0x66, 0x0f, 0x6a], 128), ("punpcklqdq", [0x66, 0x0f, 0x6c], 128),
  ("punpckhqdq", [0x66, 0x0f, 0x6d], 128), ("pmaddwd", [0x66, 0x0f, 0xf5], 128)]

/-- Operations with a control byte. -/
def sseControlled : List (String × List UInt8 × Nat) := [
  ("shufps", [0x0f, 0xc6], 128), ("shufpd", [0x66, 0x0f, 0xc6], 128), ("cmpps", [0x0f, 0xc2], 128),
  ("cmppd", [0x66, 0x0f, 0xc2], 128), ("cmpss", [0xf3, 0x0f, 0xc2], 32),
  ("cmpsd", [0xf2, 0x0f, 0xc2], 64), ("pshufd", [0x66, 0x0f, 0x70], 128),
  ("blendps", [0x66, 0x0f, 0x3a, 0x0c], 128), ("blendpd", [0x66, 0x0f, 0x3a, 0x0d], 128),
  ("roundps", [0x66, 0x0f, 0x3a, 0x08], 128), ("roundpd", [0x66, 0x0f, 0x3a, 0x09], 128),
  ("roundss", [0x66, 0x0f, 0x3a, 0x0a], 32), ("roundsd", [0x66, 0x0f, 0x3a, 0x0b], 64),
  ("palignr", [0x66, 0x0f, 0x3a, 0x0f], 128)]

/-- Shifts by an immediate count: opcode bytes and opcode extension. -/
def sseShifts : List (String × List UInt8 × Fin 8) := [
  ("psrlw", [0x66, 0x0f, 0x71], 2), ("psraw", [0x66, 0x0f, 0x71], 4),
  ("psllw", [0x66, 0x0f, 0x71], 6), ("psrld", [0x66, 0x0f, 0x72], 2),
  ("psrad", [0x66, 0x0f, 0x72], 4), ("pslld", [0x66, 0x0f, 0x72], 6),
  ("psrlq", [0x66, 0x0f, 0x73], 2), ("psrldq", [0x66, 0x0f, 0x73], 3),
  ("psllq", [0x66, 0x0f, 0x73], 6), ("pslldq", [0x66, 0x0f, 0x73], 7)]

/-- Operations that overwrite their destination without reading it. -/
def sseOverwriting : List String := [
  "sqrtps", "sqrtpd", "cvtdq2ps", "cvtps2dq", "cvttps2dq", "pshufd", "roundps", "roundpd"]

/-- The slot of the destination of an operation. -/
def sseTarget (name : String) : Slot := if sseOverwriting.contains name then regW else regRW

/-- A move with a load form and a store form. -/
def sseMove (bits : Nat) (load store : List UInt8) : List Form := [
  row [xmm 1, xmmMem 2 bits] (op load).r [regW, rmR],
  row [mem bits, xmm 1] (op store).r [rmW, regR]]

/-- A conversion from a general-purpose register or datum of either width. -/
def sseFromInteger (bytes : List UInt8) : List Form := [
  row [xmm 1, rm32] (op bytes).r [regW, rmR],
  row [xmm 1, rm64] (opW bytes).r [regW, rmR]]

/-- A conversion to a general-purpose register of either width. -/
def sseToInteger (bytes : List UInt8) (bits : Nat) : List Form := [
  row [r32, xmmMem 1 bits] (op bytes).r [regW, rmR],
  row [r64, xmmMem 1 bits] (opW bytes).r [regW, rmR]]

def sseMoveEntries : List Entry := [
  ⟨"movups", sseMove 128 [0x0f, 0x10] [0x0f, 0x11]⟩,
  ⟨"movaps", sseMove 128 [0x0f, 0x28] [0x0f, 0x29]⟩,
  ⟨"movupd", sseMove 128 [0x66, 0x0f, 0x10] [0x66, 0x0f, 0x11]⟩,
  ⟨"movapd", sseMove 128 [0x66, 0x0f, 0x28] [0x66, 0x0f, 0x29]⟩,
  ⟨"movdqu", sseMove 128 [0xf3, 0x0f, 0x6f] [0xf3, 0x0f, 0x7f]⟩,
  ⟨"movdqa", sseMove 128 [0x66, 0x0f, 0x6f] [0x66, 0x0f, 0x7f]⟩,
  ⟨"movss", sseMove 32 [0xf3, 0x0f, 0x10] [0xf3, 0x0f, 0x11]⟩,
  ⟨"movsd", sseMove 64 [0xf2, 0x0f, 0x10] [0xf2, 0x0f, 0x11]⟩,
  ⟨"movntps", [row [mem 128, xmm 1] (op [0x0f, 0x2b]).r [rmW, regR]]⟩,
  ⟨"movd", [
    row [xmm 1, rm32] (op [0x66, 0x0f, 0x6e]).r [regW, rmR],
    row [rm32, xmm 1] (op [0x66, 0x0f, 0x7e]).r [rmW, regR]]⟩,
  ⟨"movq", [
    row [xmm 1, xmmMem 2 64] (op [0xf3, 0x0f, 0x7e]).r [regW, rmR],
    row [mem 64, xmm 1] (op [0x66, 0x0f, 0xd6]).r [rmW, regR],
    row [xmm 1, r64] (opW [0x66, 0x0f, 0x6e]).r [regW, rmR],
    row [r64, xmm 1] (opW [0x66, 0x0f, 0x7e]).r [rmW, regR]]⟩]

def sseConversionEntries : List Entry := [
  ⟨"cvtsi2ss", sseFromInteger [0xf3, 0x0f, 0x2a]⟩,
  ⟨"cvtsi2sd", sseFromInteger [0xf2, 0x0f, 0x2a]⟩,
  ⟨"cvttss2si", sseToInteger [0xf3, 0x0f, 0x2c] 32⟩,
  ⟨"cvttsd2si", sseToInteger [0xf2, 0x0f, 0x2c] 64⟩,
  ⟨"cvtss2si", sseToInteger [0xf3, 0x0f, 0x2d] 32⟩,
  ⟨"cvtsd2si", sseToInteger [0xf2, 0x0f, 0x2d] 64⟩,
  ⟨"movmskps", [row [r32, xmm 2] (op [0x0f, 0x50]).r [regW, rmR]]⟩,
  ⟨"pmovmskb", [row [r32, xmm 2] (op [0x66, 0x0f, 0xd7]).r [regW, rmR]]⟩]

def sseEntries : List Entry :=
  sseMoveEntries ++ sseConversionEntries ++
  sseOperations.map (fun p =>
    ⟨p.1, [row [xmm 1, xmmMem 2 p.2.2] (op p.2.1).r [sseTarget p.1, rmR]]⟩) ++
  sseControlled.map (fun p =>
    ⟨p.1, [row [xmm 1, xmmMem 2 p.2.2, imm8] (op p.2.1).r.ib [sseTarget p.1, rmR, immR]]⟩) ++
  sseShifts.map (fun p =>
    ⟨p.1, [row [xmm 1, imm8] ((op p.2.1).ext p.2.2).ib [rmRW, immR]]⟩)

end AsmBridge.Table
