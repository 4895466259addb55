import AsmBridge.Encoding.Table.Row

/-!
# Vector instructions with VEX

The AVX, AVX2 and FMA instructions. Packed operations come in two lengths with the same opcode;
scalar ones ignore the length. In part of the forms the notation also names the role of the third
operand.
-/

namespace AsmBridge.Table

/-- A vector length with its registers and the width of a whole vector. -/
structure Lane where
  kind : VectorKind
  bits : Nat
  length : VectorLength

def lane128 : Lane := ⟨.xmm, 128, .l128⟩
def lane256 : Lane := ⟨.ymm, 256, .l256⟩

/-- A register of the lane. -/
def Lane.reg (l : Lane) (n : Nat) : OperandType := .vector l.kind n

/-- A register of the lane or a whole vector in memory. -/
def Lane.regMem (l : Lane) (n : Nat) : OperandType := .vectorOrMem l.kind n l.bits

/-- A whole vector in memory. -/
def Lane.mem (l : Lane) : OperandType := .mem (some l.bits)

def bothLanes : List Lane := [lane128, lane256]

def rmSlots : List Slot := [regW, rmR]
def mrSlots : List Slot := [rmW, regR]
def rvmSlots : List Slot := [regW, vvvvR, rmR]
def fmaSlots : List Slot := [regRW, vvvvR, rmR]
def mvrSlots : List Slot := [rmW, vvvvR, regR]
def rmiSlots : List Slot := [regW, rmR, immR]
def mriSlots : List Slot := [rmW, regR, immR]
def rvmiSlots : List Slot := [regW, vvvvR, rmR, immR]
def rvmrSlots : List Slot := [regW, vvvvR, rmR, is4R]
def vmiSlots : List Slot := [vvvvW, rmR, immR]

/-- The operand layout of a packed operation. -/
inductive Packing
  /-- Destination, two sources. -/
  | two
  /-- Destination, source. -/
  | one
  /-- Destination, two sources, control byte. -/
  | twoControlled
  /-- Destination, source, control byte. -/
  | oneControlled
  /-- Destination, two sources, selecting register. -/
  | twoSelected

/-- A packed operation at one length. -/
def packedForm (pp : Option Mandatory) (map : OpcodeMap) (w : VexW) (byte : UInt8)
    (packing : Packing) (l : Lane) : Form :=
  let code := (vex none l.length pp map w byte).r
  match packing with
  | .two => row [l.reg 1, l.reg 2, l.regMem 3] code rvmSlots
  | .one => row [l.reg 1, l.regMem 2] code rmSlots
  | .twoControlled => row [l.reg 1, l.reg 2, l.regMem 3, imm8] code.ib rvmiSlots
  | .oneControlled => row [l.reg 1, l.regMem 2, imm8] code.ib rmiSlots
  | .twoSelected => row [l.reg 1, l.reg 2, l.regMem 3, l.reg 4] code.is4 rvmrSlots

/-- A packed operation at the given lengths. -/
def packed (name : String) (pp : Option Mandatory) (map : OpcodeMap) (w : VexW) (byte : UInt8)
    (packing : Packing) (lanes : List Lane) : Entry :=
  ⟨name, lanes.map (packedForm pp map w byte packing)⟩

/-- Name, mandatory prefix, map, width bit and opcode of an operation. -/
abbrev PackedRow := String × Option Mandatory × OpcodeMap × VexW × UInt8

/-- A row at both lengths. -/
def packedBoth (packing : Packing) (p : PackedRow) : Entry :=
  packed p.1 p.2.1 p.2.2.1 p.2.2.2.1 p.2.2.2.2 packing bothLanes

def packedTwo : List PackedRow := [
  ("vaddps", none, .m0F, .ignored, 0x58), ("vaddpd", some .x66, .m0F, .ignored, 0x58),
  ("vmulps", none, .m0F, .ignored, 0x59), ("vmulpd", some .x66, .m0F, .ignored, 0x59),
  ("vsubps", none, .m0F, .ignored, 0x5c), ("vsubpd", some .x66, .m0F, .ignored, 0x5c),
  ("vdivps", none, .m0F, .ignored, 0x5e), ("vdivpd", some .x66, .m0F, .ignored, 0x5e),
  ("vminps", none, .m0F, .ignored, 0x5d), ("vminpd", some .x66, .m0F, .ignored, 0x5d),
  ("vmaxps", none, .m0F, .ignored, 0x5f), ("vmaxpd", some .x66, .m0F, .ignored, 0x5f),
  ("vandps", none, .m0F, .ignored, 0x54), ("vandpd", some .x66, .m0F, .ignored, 0x54),
  ("vandnps", none, .m0F, .ignored, 0x55), ("vandnpd", some .x66, .m0F, .ignored, 0x55),
  ("vorps", none, .m0F, .ignored, 0x56), ("vorpd", some .x66, .m0F, .ignored, 0x56),
  ("vxorps", none, .m0F, .ignored, 0x57), ("vxorpd", some .x66, .m0F, .ignored, 0x57),
  ("vunpcklps", none, .m0F, .ignored, 0x14), ("vunpckhps", none, .m0F, .ignored, 0x15),
  ("vunpcklpd", some .x66, .m0F, .ignored, 0x14), ("vunpckhpd", some .x66, .m0F, .ignored, 0x15),
  ("vaddsubps", some .xF2, .m0F, .ignored, 0xd0), ("vaddsubpd", some .x66, .m0F, .ignored, 0xd0),
  ("vhaddps", some .xF2, .m0F, .ignored, 0x7c), ("vhaddpd", some .x66, .m0F, .ignored, 0x7c),
  ("vhsubps", some .xF2, .m0F, .ignored, 0x7d), ("vhsubpd", some .x66, .m0F, .ignored, 0x7d),
  ("vpaddb", some .x66, .m0F, .ignored, 0xfc), ("vpaddw", some .x66, .m0F, .ignored, 0xfd),
  ("vpaddd", some .x66, .m0F, .ignored, 0xfe), ("vpaddq", some .x66, .m0F, .ignored, 0xd4),
  ("vpaddsb", some .x66, .m0F, .ignored, 0xec), ("vpaddsw", some .x66, .m0F, .ignored, 0xed),
  ("vpaddusb", some .x66, .m0F, .ignored, 0xdc), ("vpaddusw", some .x66, .m0F, .ignored, 0xdd),
  ("vpsubb", some .x66, .m0F, .ignored, 0xf8), ("vpsubw", some .x66, .m0F, .ignored, 0xf9),
  ("vpsubd", some .x66, .m0F, .ignored, 0xfa), ("vpsubq", some .x66, .m0F, .ignored, 0xfb),
  ("vpsubsb", some .x66, .m0F, .ignored, 0xe8), ("vpsubsw", some .x66, .m0F, .ignored, 0xe9),
  ("vpsubusb", some .x66, .m0F, .ignored, 0xd8), ("vpsubusw", some .x66, .m0F, .ignored, 0xd9),
  ("vpmullw", some .x66, .m0F, .ignored, 0xd5), ("vpmulhw", some .x66, .m0F, .ignored, 0xe5),
  ("vpmulhuw", some .x66, .m0F, .ignored, 0xe4), ("vpmulld", some .x66, .m0F38, .ignored, 0x40),
  ("vpmuludq", some .x66, .m0F, .ignored, 0xf4), ("vpmuldq", some .x66, .m0F38, .ignored, 0x28),
  ("vpmaddwd", some .x66, .m0F, .ignored, 0xf5), ("vpmaddubsw", some .x66, .m0F38, .ignored, 0x04),
  ("vpand", some .x66, .m0F, .ignored, 0xdb), ("vpandn", some .x66, .m0F, .ignored, 0xdf),
  ("vpor", some .x66, .m0F, .ignored, 0xeb), ("vpxor", some .x66, .m0F, .ignored, 0xef),
  ("vpcmpeqb", some .x66, .m0F, .ignored, 0x74), ("vpcmpeqw", some .x66, .m0F, .ignored, 0x75),
  ("vpcmpeqd", some .x66, .m0F, .ignored, 0x76), ("vpcmpeqq", some .x66, .m0F38, .ignored, 0x29),
  ("vpcmpgtb", some .x66, .m0F, .ignored, 0x64), ("vpcmpgtw", some .x66, .m0F, .ignored, 0x65),
  ("vpcmpgtd", some .x66, .m0F, .ignored, 0x66), ("vpcmpgtq", some .x66, .m0F38, .ignored, 0x37),
  ("vpmaxsb", some .x66, .m0F38, .ignored, 0x3c), ("vpmaxsw", some .x66, .m0F, .ignored, 0xee),
  ("vpmaxsd", some .x66, .m0F38, .ignored, 0x3d), ("vpmaxub", some .x66, .m0F, .ignored, 0xde),
  ("vpmaxuw", some .x66, .m0F38, .ignored, 0x3e), ("vpmaxud", some .x66, .m0F38, .ignored, 0x3f),
  ("vpminsb", some .x66, .m0F38, .ignored, 0x38), ("vpminsw", some .x66, .m0F, .ignored, 0xea),
  ("vpminsd", some .x66, .m0F38, .ignored, 0x39), ("vpminub", some .x66, .m0F, .ignored, 0xda),
  ("vpminuw", some .x66, .m0F38, .ignored, 0x3a), ("vpminud", some .x66, .m0F38, .ignored, 0x3b),
  ("vpavgb", some .x66, .m0F, .ignored, 0xe0), ("vpavgw", some .x66, .m0F, .ignored, 0xe3),
  ("vpsadbw", some .x66, .m0F, .ignored, 0xf6), ("vpshufb", some .x66, .m0F38, .ignored, 0x00),
  ("vpunpcklbw", some .x66, .m0F, .ignored, 0x60), ("vpunpckhbw", some .x66, .m0F, .ignored, 0x68),
  ("vpunpcklwd", some .x66, .m0F, .ignored, 0x61), ("vpunpckhwd", some .x66, .m0F, .ignored, 0x69),
  ("vpunpckldq", some .x66, .m0F, .ignored, 0x62), ("vpunpckhdq", some .x66, .m0F, .ignored, 0x6a),
  ("vpunpcklqdq", some .x66, .m0F, .ignored, 0x6c),
  ("vpunpckhqdq", some .x66, .m0F, .ignored, 0x6d), ("vpacksswb", some .x66, .m0F, .ignored, 0x63),
  ("vpackssdw", some .x66, .m0F, .ignored, 0x6b), ("vpackuswb", some .x66, .m0F, .ignored, 0x67),
  ("vpackusdw", some .x66, .m0F38, .ignored, 0x2b), ("vpsllvd", some .x66, .m0F38, .w0, 0x47),
  ("vpsllvq", some .x66, .m0F38, .w1, 0x47), ("vpsrlvd", some .x66, .m0F38, .w0, 0x45),
  ("vpsrlvq", some .x66, .m0F38, .w1, 0x45), ("vpsravd", some .x66, .m0F38, .w0, 0x46)]

def packedOne : List PackedRow := [
  ("vsqrtps", none, .m0F, .ignored, 0x51), ("vsqrtpd", some .x66, .m0F, .ignored, 0x51),
  ("vrsqrtps", none, .m0F, .ignored, 0x52), ("vrcpps", none, .m0F, .ignored, 0x53),
  ("vpabsb", some .x66, .m0F38, .ignored, 0x1c), ("vpabsw", some .x66, .m0F38, .ignored, 0x1d),
  ("vpabsd", some .x66, .m0F38, .ignored, 0x1e),
  ("vmovddup", some .xF2, .m0F, .ignored, 0x12), ("vmovshdup", some .xF3, .m0F, .ignored, 0x16),
  ("vmovsldup", some .xF3, .m0F, .ignored, 0x12), ("vptest", some .x66, .m0F38, .ignored, 0x17),
  ("vtestps", some .x66, .m0F38, .w0, 0x0e), ("vcvtdq2ps", none, .m0F, .ignored, 0x5b),
  ("vcvtps2dq", some .x66, .m0F, .ignored, 0x5b), ("vcvttps2dq", some .xF3, .m0F, .ignored, 0x5b)]

def packedTwoControlled : List PackedRow := [
  ("vshufps", none, .m0F, .ignored, 0xc6), ("vshufpd", some .x66, .m0F, .ignored, 0xc6),
  ("vcmpps", none, .m0F, .ignored, 0xc2), ("vcmppd", some .x66, .m0F, .ignored, 0xc2),
  ("vblendps", some .x66, .m0F3A, .ignored, 0x0c), ("vblendpd", some .x66, .m0F3A, .ignored, 0x0d),
  ("vdpps", some .x66, .m0F3A, .ignored, 0x40), ("vpalignr", some .x66, .m0F3A, .ignored, 0x0f),
  ("vpblendw", some .x66, .m0F3A, .ignored, 0x0e), ("vpblendd", some .x66, .m0F3A, .w0, 0x02)]

def packedOneControlled : List PackedRow := [
  ("vroundps", some .x66, .m0F3A, .ignored, 0x08), ("vroundpd", some .x66, .m0F3A, .ignored, 0x09),
  ("vpshufd", some .x66, .m0F, .ignored, 0x70), ("vpshufhw", some .xF3, .m0F, .ignored, 0x70),
  ("vpshuflw", some .xF2, .m0F, .ignored, 0x70)]

def packedTwoSelected : List PackedRow := [
  ("vblendvps", some .x66, .m0F3A, .w0, 0x4a), ("vblendvpd", some .x66, .m0F3A, .w0, 0x4b),
  ("vpblendvb", some .x66, .m0F3A, .w0, 0x4c)]

/-- Operations of one length only. -/
def packedSingleEntries : List Entry := [
  packed "vmovhlps" none .m0F .ignored 0x12 .two [lane128],
  packed "vmovlhps" none .m0F .ignored 0x16 .two [lane128],
  packed "vperm2f128" (some .x66) .m0F3A .w0 0x06 .twoControlled [lane256],
  packed "vperm2i128" (some .x66) .m0F3A .w0 0x46 .twoControlled [lane256],
  packed "vpermq" (some .x66) .m0F3A .w1 0x00 .oneControlled [lane256],
  packed "vpermpd" (some .x66) .m0F3A .w1 0x01 .oneControlled [lane256],
  packed "vpermd" (some .x66) .m0F38 .w0 0x36 .two [lane256],
  packed "vpermps" (some .x66) .m0F38 .w0 0x16 .two [lane256]]

/-- A scalar opcode. -/
def scalarVex (pp : Option Mandatory) (w : VexW) (byte : UInt8) : OpcodeEntry :=
  (vex none .ignored pp .m0F w byte).r

/-- Name, mandatory prefix, opcode and width of the last source of a scalar operation. -/
abbrev ScalarRow := String × Option Mandatory × UInt8 × Nat

def scalarTwo : List ScalarRow := [
  ("vaddss", some .xF3, 0x58, 32), ("vaddsd", some .xF2, 0x58, 64),
  ("vmulss", some .xF3, 0x59, 32), ("vmulsd", some .xF2, 0x59, 64),
  ("vsubss", some .xF3, 0x5c, 32), ("vsubsd", some .xF2, 0x5c, 64),
  ("vdivss", some .xF3, 0x5e, 32), ("vdivsd", some .xF2, 0x5e, 64),
  ("vminss", some .xF3, 0x5d, 32), ("vminsd", some .xF2, 0x5d, 64),
  ("vmaxss", some .xF3, 0x5f, 32), ("vmaxsd", some .xF2, 0x5f, 64),
  ("vsqrtss", some .xF3, 0x51, 32), ("vsqrtsd", some .xF2, 0x51, 64),
  ("vcvtss2sd", some .xF3, 0x5a, 32), ("vcvtsd2ss", some .xF2, 0x5a, 64)]

def scalarTwoControlled : List ScalarRow := [
  ("vcmpss", some .xF3, 0xc2, 32), ("vcmpsd", some .xF2, 0xc2, 64)]

def scalarOne : List ScalarRow := [
  ("vucomiss", none, 0x2e, 32), ("vucomisd", some .x66, 0x2e, 64),
  ("vcomiss", none, 0x2f, 32), ("vcomisd", some .x66, 0x2f, 64)]

def scalarEntries : List Entry :=
  scalarTwo.map (fun p =>
    ⟨p.1, [row [xmm 1, xmm 2, xmmMem 3 p.2.2.2] (scalarVex p.2.1 .ignored p.2.2.1) rvmSlots]⟩) ++
  scalarTwoControlled.map (fun p =>
    ⟨p.1, [row [xmm 1, xmm 2, xmmMem 3 p.2.2.2, imm8] (scalarVex p.2.1 .ignored p.2.2.1).ib
      rvmiSlots]⟩) ++
  scalarOne.map (fun p =>
    ⟨p.1, [row [xmm 1, xmmMem 2 p.2.2.2] (scalarVex p.2.1 .ignored p.2.2.1) rmSlots]⟩)

/-- A move of whole vectors with load and store forms. -/
def vectorMove (name : String) (pp : Option Mandatory) (load store : UInt8) : Entry :=
  ⟨name, bothLanes.flatMap fun l => [
    row [l.reg 1, l.regMem 2] (vex none l.length pp .m0F .ignored load).r rmSlots,
    row [l.mem, l.reg 1] (vex none l.length pp .m0F .ignored store).r mrSlots]⟩

/-- A store of whole vectors. -/
def vectorStore (name : String) (pp : Option Mandatory) (byte : UInt8) : Entry :=
  ⟨name, bothLanes.map fun l =>
    row [l.mem, l.reg 1] (vex none l.length pp .m0F .ignored byte).r mrSlots⟩

/-- A move of one element, which between registers merges with a third one. -/
def elementMove (name : String) (pp : Mandatory) (bits : Nat) : Entry :=
  ⟨name, [
    row [xmm 1, mem bits] (scalarVex (some pp) .ignored 0x10) rmSlots,
    row [mem bits, xmm 1] (scalarVex (some pp) .ignored 0x11) mrSlots,
    row [xmm 1, xmm 2, xmm 3] (vex (some .firstSource) .ignored (some pp) .m0F .ignored 0x10).r
      rvmSlots]⟩

/-- An opcode of the map `0F` or another, length 128, mandatory prefix `66`. -/
def vex128 (map : OpcodeMap) (w : VexW) (byte : UInt8) : OpcodeEntry :=
  (vex none .l128 (some .x66) map w byte).r

/-- An opcode of length 256, mandatory prefix `66`. -/
def vex256 (map : OpcodeMap) (w : VexW) (byte : UInt8) : OpcodeEntry :=
  (vex none .l256 (some .x66) map w byte).r

def vexMoveEntries : List Entry := [
  vectorMove "vmovups" none 0x10 0x11, vectorMove "vmovaps" none 0x28 0x29,
  vectorMove "vmovupd" (some .x66) 0x10 0x11, vectorMove "vmovapd" (some .x66) 0x28 0x29,
  vectorMove "vmovdqu" (some .xF3) 0x6f 0x7f, vectorMove "vmovdqa" (some .x66) 0x6f 0x7f,
  vectorStore "vmovntps" none 0x2b, vectorStore "vmovntdq" (some .x66) 0xe7,
  ⟨"vlddqu", bothLanes.map fun l =>
    row [l.reg 1, l.mem] (vex none l.length (some .xF2) .m0F .ignored 0xf0).r rmSlots⟩,
  elementMove "vmovss" .xF3 32, elementMove "vmovsd" .xF2 64,
  ⟨"vmovd", [
    row [xmm 1, rm32] (vex128 .m0F .w0 0x6e) rmSlots,
    row [rm32, xmm 1] (vex128 .m0F .w0 0x7e) mrSlots]⟩,
  ⟨"vmovq", [
    row [xmm 1, xmmMem 2 64] (vex none .l128 (some .xF3) .m0F .ignored 0x7e).r rmSlots,
    row [mem 64, xmm 1] (vex128 .m0F .ignored 0xd6) mrSlots,
    row [xmm 1, r64] (vex128 .m0F .w1 0x6e) rmSlots,
    row [r64, xmm 1] (vex128 .m0F .w1 0x7e) mrSlots]⟩]

/-- A broadcast of an integer element to both lengths. -/
def integerBroadcast (name : String) (byte : UInt8) (bits : Nat) : Entry :=
  ⟨name, [
    row [xmm 1, xmmMem 2 bits] (vex128 .m0F38 .w0 byte) rmSlots,
    row [ymm 1, xmmMem 2 bits] (vex256 .m0F38 .w0 byte) rmSlots]⟩

def broadcastEntries : List Entry := [
  integerBroadcast "vbroadcastss" 0x18 32,
  ⟨"vbroadcastsd", [row [ymm 1, xmmMem 2 64] (vex256 .m0F38 .w0 0x19) rmSlots]⟩,
  ⟨"vbroadcastf128", [row [ymm 1, mem 128] (vex256 .m0F38 .w0 0x1a) rmSlots]⟩,
  ⟨"vbroadcasti128", [row [ymm 1, mem 128] (vex256 .m0F38 .w0 0x5a) rmSlots]⟩,
  integerBroadcast "vpbroadcastb" 0x78 8, integerBroadcast "vpbroadcastw" 0x79 16,
  integerBroadcast "vpbroadcastd" 0x58 32, integerBroadcast "vpbroadcastq" 0x59 64]

/-- A VEX opcode that names its third operand as the first source. -/
def ndsVex (length : VectorLength) (map : OpcodeMap) (w : VexW) (byte : UInt8) : OpcodeEntry :=
  (vex (some .firstSource) length (some .x66) map w byte).r

/-- The insertion of half a vector. -/
def halfInsert (name : String) (byte : UInt8) : Entry :=
  ⟨name, [row [ymm 1, ymm 2, xmmMem 3 128, imm8] (ndsVex .l256 .m0F3A .w0 byte).ib rvmiSlots]⟩

/-- The extraction of half a vector. -/
def halfExtract (name : String) (byte : UInt8) : Entry :=
  ⟨name, [row [xmmMem 1 128, ymm 2, imm8] (vex256 .m0F3A .w0 byte).ib mriSlots]⟩

/-- A permutation within the halves, by a vector or by a control byte. -/
def laneShuffle (name : String) (byVector byControl : UInt8) : Entry :=
  ⟨name, bothLanes.flatMap fun l => [
    row [l.reg 1, l.reg 2, l.regMem 3] (ndsVex l.length .m0F38 .w0 byVector) rvmSlots,
    row [l.reg 1, l.regMem 2, imm8]
      (vex none l.length (some .x66) .m0F3A .w0 byControl).r.ib rmiSlots]⟩

/-- The insertion of an element. -/
def elementInsert (name : String) (map : OpcodeMap) (w : VexW) (byte : UInt8)
    (source : OperandType) : Entry :=
  ⟨name, [row [xmm 1, xmm 2, source, imm8] (ndsVex .l128 map w byte).ib rvmiSlots]⟩

/-- The extraction of an element. -/
def elementExtract (name : String) (w : VexW) (byte : UInt8) (target : OperandType) : Entry :=
  ⟨name, [row [target, xmm 2, imm8] (vex128 .m0F3A w byte).ib mriSlots]⟩

def elementEntries : List Entry := [
  halfInsert "vinsertf128" 0x18, halfInsert "vinserti128" 0x38,
  halfExtract "vextractf128" 0x19, halfExtract "vextracti128" 0x39,
  laneShuffle "vpermilps" 0x0c 0x04, laneShuffle "vpermilpd" 0x0d 0x05,
  elementInsert "vpinsrb" .m0F3A .w0 0x20 (.gpOrNarrow .w32 8),
  elementInsert "vpinsrw" .m0F .w0 0xc4 (.gpOrNarrow .w32 16),
  elementInsert "vpinsrd" .m0F3A .w0 0x22 rm32,
  elementInsert "vpinsrq" .m0F3A .w1 0x22 rm64,
  elementInsert "vinsertps" .m0F3A .ignored 0x21 (xmmMem 3 32),
  elementExtract "vpextrb" .w0 0x14 (.gpOrNarrow .w32 8),
  elementExtract "vpextrd" .w0 0x16 rm32,
  elementExtract "vpextrq" .w1 0x16 rm64,
  elementExtract "vextractps" .ignored 0x17 rm32,
  ⟨"vpextrw", [row [r32, xmm 2, imm8] (vex128 .m0F .w0 0xc5).ib rmiSlots]⟩]

/-- The sign bits of a vector's elements as a number. -/
def signMask (name : String) (pp : Option Mandatory) (byte : UInt8) : Entry :=
  ⟨name, bothLanes.map fun l =>
    row [r32, l.reg 2] (vex none l.length pp .m0F .ignored byte).r rmSlots⟩

/-- A load and a store under a mask. -/
def maskedMove (name : String) (load store : UInt8) (w : VexW) : Entry :=
  ⟨name, bothLanes.flatMap fun l => [
    row [l.reg 1, l.reg 2, l.mem] (ndsVex l.length .m0F38 w load) rvmSlots,
    row [l.mem, l.reg 1, l.reg 2] (ndsVex l.length .m0F38 w store) mvrSlots]⟩

/-- The widening of elements by a factor; the source is a fraction of the vector. -/
def widening (name : String) (byte : UInt8) (ratio : Nat) : Entry :=
  ⟨name, [
    row [xmm 1, xmmMem 2 (128 / ratio)] (vex128 .m0F38 .ignored byte) rmSlots,
    row [ymm 1, xmmMem 2 (256 / ratio)] (vex256 .m0F38 .ignored byte) rmSlots]⟩

def maskAndWidenEntries : List Entry := [
  signMask "vmovmskps" none 0x50, signMask "vmovmskpd" (some .x66) 0x50,
  signMask "vpmovmskb" (some .x66) 0xd7,
  maskedMove "vmaskmovps" 0x2c 0x2e .w0, maskedMove "vmaskmovpd" 0x2d 0x2f .w0,
  maskedMove "vpmaskmovd" 0x8c 0x8e .w0, maskedMove "vpmaskmovq" 0x8c 0x8e .w1,
  widening "vpmovsxbw" 0x20 2, widening "vpmovsxbd" 0x21 4, widening "vpmovsxbq" 0x22 8,
  widening "vpmovsxwd" 0x23 2, widening "vpmovsxwq" 0x24 4, widening "vpmovsxdq" 0x25 2,
  widening "vpmovzxbw" 0x30 2, widening "vpmovzxbd" 0x31 4, widening "vpmovzxbq" 0x32 8,
  widening "vpmovzxwd" 0x33 2, widening "vpmovzxwq" 0x34 4, widening "vpmovzxdq" 0x35 2]

/-- A conversion to elements twice as wide. -/
def lengthening (name : String) (pp : Option Mandatory) (map : OpcodeMap) (w : VexW)
    (byte : UInt8) : Entry :=
  ⟨name, [
    row [xmm 1, xmmMem 2 64] (vex none .l128 pp map w byte).r rmSlots,
    row [ymm 1, xmmMem 2 128] (vex none .l256 pp map w byte).r rmSlots]⟩

/-- A conversion to elements half as wide. -/
def shortening (name : String) (byte : UInt8) : Entry :=
  ⟨name, [
    row [xmm 1, xmmMem 2 128] (vex128 .m0F .ignored byte) rmSlots,
    row [xmm 1, ymmMem 2 256] (vex256 .m0F .ignored byte) rmSlots]⟩

/-- A conversion of an integer of either width to an element. -/
def fromInteger (name : String) (pp : Mandatory) (byte : UInt8) : Entry :=
  ⟨name, [
    row [xmm 1, xmm 2, rm32] (vex (some .firstSource) .ignored (some pp) .m0F .w0 byte).r rvmSlots,
    row [xmm 1, xmm 2, rm64] (vex (some .firstSource) .ignored (some pp) .m0F .w1 byte).r
      rvmSlots]⟩

/-- A conversion of an element to an integer of either width. -/
def toInteger (name : String) (pp : Mandatory) (byte : UInt8) (bits : Nat) : Entry :=
  ⟨name, [
    row [r32, xmmMem 1 bits] (scalarVex (some pp) .w0 byte) rmSlots,
    row [r64, xmmMem 1 bits] (scalarVex (some pp) .w1 byte) rmSlots]⟩

def conversionEntries : List Entry := [
  lengthening "vcvtps2pd" none .m0F .ignored 0x5a,
  lengthening "vcvtdq2pd" (some .xF3) .m0F .ignored 0xe6,
  lengthening "vcvtph2ps" (some .x66) .m0F38 .w0 0x13,
  shortening "vcvtpd2ps" 0x5a, shortening "vcvttpd2dq" 0xe6,
  fromInteger "vcvtsi2ss" .xF3 0x2a, fromInteger "vcvtsi2sd" .xF2 0x2a,
  toInteger "vcvttss2si" .xF3 0x2c 32, toInteger "vcvttsd2si" .xF2 0x2c 64,
  toInteger "vcvtss2si" .xF3 0x2d 32, toInteger "vcvtsd2si" .xF2 0x2d 64]

/-- A packed shift by an immediate count. -/
def shiftByImm (byte : UInt8) (n : Fin 8) (l : Lane) : Form :=
  row [l.reg 1, l.reg 2, imm8]
    ((vex (some .destination) l.length (some .x66) .m0F .ignored byte).ext n).ib vmiSlots

/-- A packed shift by an immediate count or by the count in a vector. -/
def vectorShift (name : String) (byImm : UInt8) (n : Fin 8) (byVector : UInt8) : Entry :=
  ⟨name, bothLanes.flatMap fun l => [
    shiftByImm byImm n l,
    row [l.reg 1, l.reg 2, xmmMem 3 128] (ndsVex l.length .m0F .ignored byVector) rvmSlots]⟩

/-- A shift of whole halves by an immediate count of bytes. -/
def byteShift (name : String) (n : Fin 8) : Entry :=
  ⟨name, bothLanes.map (shiftByImm 0x73 n)⟩

def shiftEntries : List Entry := [
  vectorShift "vpsrlw" 0x71 2 0xd1, vectorShift "vpsraw" 0x71 4 0xe1,
  vectorShift "vpsllw" 0x71 6 0xf1, vectorShift "vpsrld" 0x72 2 0xd2,
  vectorShift "vpsrad" 0x72 4 0xe2, vectorShift "vpslld" 0x72 6 0xf2,
  vectorShift "vpsrlq" 0x73 2 0xd3, vectorShift "vpsllq" 0x73 6 0xf3,
  byteShift "vpsrldq" 3, byteShift "vpslldq" 7]

/-- A fused operation: name, opcode in the order `132`, and whether it is packed. -/
def fusedOperations : List (String × UInt8 × Bool) := [
  ("vfmaddsub", 0x96, true), ("vfmsubadd", 0x97, true), ("vfmadd", 0x98, true),
  ("vfmadd", 0x99, false), ("vfmsub", 0x9a, true), ("vfmsub", 0x9b, false),
  ("vfnmadd", 0x9c, true), ("vfnmadd", 0x9d, false), ("vfnmsub", 0x9e, true),
  ("vfnmsub", 0x9f, false)]

/-- The orders of the operands of a fused operation, with what each adds to the opcode. -/
def fusedOrders : List (String × UInt8) := [("132", 0), ("213", 0x10), ("231", 0x20)]

/-- A fused opcode. -/
def fusedVex (length : VectorLength) (w : VexW) (byte : UInt8) : OpcodeEntry :=
  (vex (some .secondSource) length (some .x66) .m0F38 w byte).r

/-- The forms of a fused operation on elements of double width or not. -/
def fusedForms (isPacked isDouble : Bool) (byte : UInt8) : List Form :=
  let w : VexW := if isDouble then .w1 else .w0
  if isPacked then
    bothLanes.map fun l => row [l.reg 1, l.reg 2, l.regMem 3] (fusedVex l.length w byte) fmaSlots
  else
    [row [xmm 1, xmm 2, xmmMem 3 (if isDouble then 64 else 32)] (fusedVex .ignored w byte) fmaSlots]

def fusedEntries : List Entry :=
  fusedOperations.flatMap fun (name, byte, isPacked) =>
    fusedOrders.flatMap fun (order, step) =>
      [("s", false), ("d", true)].map fun (letter, isDouble) =>
        ⟨name ++ order ++ (if isPacked then "p" else "s") ++ letter,
          fusedForms isPacked isDouble (byte + step)⟩

def vexEntries : List Entry :=
  packedTwo.map (packedBoth .two) ++ packedOne.map (packedBoth .one) ++
  packedTwoControlled.map (packedBoth .twoControlled) ++
  packedOneControlled.map (packedBoth .oneControlled) ++
  packedTwoSelected.map (packedBoth .twoSelected) ++ packedSingleEntries ++ scalarEntries ++
  vexMoveEntries ++ broadcastEntries ++ elementEntries ++ maskAndWidenEntries ++
  conversionEntries ++ shiftEntries ++ fusedEntries

end AsmBridge.Table
