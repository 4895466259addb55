import AsmBridge.Text.Scan

/-!
# Registers of 64-bit mode

General-purpose registers in four widths, the four high bytes, the vector registers in two
widths, and the instruction pointer. A register is what it is in an instruction word: a number
below sixteen and a class; its name and the storage it shares follow from them.
-/

namespace AsmBridge

/-! The fields of an instruction word have two, three or four bits; a number written in one of
them is a literal of `Fin 4`, `Fin 8` or `Fin 16`. -/

section Fields

-- Zero is that of the core library, as in the literals of `Fin`.
attribute [local instance (high)] Zero.ofOfNat0

instance neZero_four : NeZero 4 := ⟨by decide⟩
instance neZero_eight : NeZero 8 := ⟨by decide⟩
instance neZero_sixteen : NeZero 16 := ⟨by decide⟩

end Fields

/-- Width of a general-purpose register. -/
inductive Width
  | w8
  | w16
  | w32
  | w64
deriving DecidableEq, Repr, Inhabited

namespace Width

/-- Width in bits. -/
def bits : Width → Nat
  | .w8 => 8
  | .w16 => 16
  | .w32 => 32
  | .w64 => 64

/-- Width in bytes. -/
def bytes (w : Width) : Nat := w.bits / 8

/-- The four widths, narrowest first. -/
def all : List Width := [.w8, .w16, .w32, .w64]

/-- The width of so many bits. -/
def ofBits? (n : Nat) : Option Width := all.find? fun w => w.bits == n

end Width

/-- A register of 64-bit mode. -/
inductive Register
  /-- A general-purpose register; of width eight the numbers four to seven are `spl`, `bpl`,
  `sil` and `dil`. -/
  | gp (width : Width) (number : Fin 16)
  /-- The second byte of one of the first four general-purpose registers. -/
  | highByte (number : Fin 4)
  | xmm (number : Fin 16)
  | ymm (number : Fin 16)
  /-- The instruction pointer, which can only be the base of an address. -/
  | rip
deriving DecidableEq, Repr, Inhabited

namespace Register

/-- Names of the eight classic registers by width. -/
def classicNames : Width → List String
  | .w64 => ["rax", "rcx", "rdx", "rbx", "rsp", "rbp", "rsi", "rdi"]
  | .w32 => ["eax", "ecx", "edx", "ebx", "esp", "ebp", "esi", "edi"]
  | .w16 => ["ax", "cx", "dx", "bx", "sp", "bp", "si", "di"]
  | .w8 => ["al", "cl", "dl", "bl", "spl", "bpl", "sil", "dil"]

/-- What follows the number of one of the eight later registers. -/
def widthMark : Width → String
  | .w64 => ""
  | .w32 => "d"
  | .w16 => "w"
  | .w8 => "b"

/-- The name of a register in assembly source. -/
def name : Register → String
  | .gp w n => ((classicNames w)[n.val]?).getD ("r" ++ toString n.val ++ widthMark w)
  | .highByte n => (["ah", "ch", "dh", "bh"][n.val]?).getD ""
  | .xmm n => "xmm" ++ toString n.val
  | .ymm n => "ymm" ++ toString n.val
  | .rip => "rip"

/-- Width in bits. -/
def bits : Register → Nat
  | .gp w _ => w.bits
  | .highByte _ => 8
  | .xmm _ => 128
  | .ymm _ => 256
  | .rip => 64

/-- The number of a register in an instruction word; the high bytes have the numbers that
`spl`, `bpl`, `sil` and `dil` have when an extension byte is present. -/
def number : Register → Nat
  | .gp _ n => n.val
  | .highByte n => 4 + n.val
  | .xmm n => n.val
  | .ymm n => n.val
  | .rip => 5

/-- The three low bits of the number, which a field of the instruction holds. -/
def low (r : Register) : Fin 8 := ⟨r.number % 8, by omega⟩

/-- The fourth bit of the number, which an extension bit holds. -/
def extended (r : Register) : Bool := 8 ≤ r.number

/-- The widest register that shares this one's storage. -/
def family : Register → Register
  | .gp _ n => .gp .w64 n
  | .highByte n => .gp .w64 ⟨n.val, by omega⟩
  | .xmm n => .ymm n
  | .ymm n => .ymm n
  | .rip => .rip

/-- A vector register of either width. -/
def isVector : Register → Bool
  | .xmm _ => true
  | .ymm _ => true
  | _ => false

/-- One of `spl`, `bpl`, `sil` and `dil`, which exist only beside an extension byte. -/
def needsExtension : Register → Bool
  | .gp .w8 n => 4 ≤ n.val && n.val < 8
  | _ => false

/-- One of `ah`, `ch`, `dh` and `bh`, which exist only without an extension byte. -/
def isHighByte : Register → Bool
  | .highByte _ => true
  | _ => false

/-- A register that may take part in an address besides the instruction pointer. -/
def isAddressing : Register → Bool
  | .gp .w64 _ => true
  | _ => false

/-- All numbers of a register. -/
def numbers : List (Fin 16) := List.finRange 16

/-- Every register. -/
def all : List Register :=
  Width.all.flatMap (fun w => numbers.map (.gp w)) ++ (List.finRange 4).map .highByte ++
    numbers.map .xmm ++ numbers.map .ymm ++ [.rip]

/-- Every name with its register. The later byte registers have a second name, which ends in
`l`. -/
def names : List (String × Register) :=
  all.map (fun r => (r.name, r)) ++
    (numbers.drop 8).map fun n => ("r" ++ toString n.val ++ "l", .gp .w8 n)

/-- The register of a name in letters of either case. -/
def ofName? (s : String) : Option Register :=
  (names.find? fun p => p.1 == Text.lower s).map (·.2)

/-- The register of the same storage with the given width, for general-purpose registers. -/
def alias? (r : Register) (bits : Nat) : Option Register :=
  match r.family, Width.ofBits? bits with
  | .gp _ n, some w => some (.gp w n)
  | _, _ => none

def rax : Register := .gp .w64 0
def rcx : Register := .gp .w64 1
def rdx : Register := .gp .w64 2
def rbx : Register := .gp .w64 3
def rsp : Register := .gp .w64 4
def rbp : Register := .gp .w64 5
def rsi : Register := .gp .w64 6
def rdi : Register := .gp .w64 7

/-- The integer argument registers of the System V convention, in order. -/
def integerArguments : List Register := [rdi, rsi, rdx, rcx, .gp .w64 8, .gp .w64 9]

/-- The vector argument registers of the System V convention, in order. -/
def vectorArguments : List Register := (numbers.take 8).map .xmm

end Register

end AsmBridge
