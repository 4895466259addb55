import AsmBridge.Text.Quoted

/-!
# Words as bytes

Little-endian rows of bytes, and integers reduced to a number of bits. `ofLittleEndian_littleEndian`
says that the bytes of a number read back to it modulo the size of the row.
-/

namespace AsmBridge

-- Powers of natural numbers are those of the core library.
attribute [local instance (high)] instPowNat

/-- The `n` low bytes of a number, lowest first. -/
def littleEndian : Nat → Nat → List UInt8
  | 0, _ => []
  | n + 1, v => UInt8.ofNat v :: littleEndian n (v / 256)

/-- The number whose bytes, lowest first, are these. -/
def ofLittleEndian : List UInt8 → Nat
  | [] => 0
  | b :: rest => b.toNat + 256 * ofLittleEndian rest

/-- The residue of an integer modulo `2 ^ bits`, its two's complement word. -/
def wrapped (bits : Nat) (v : Int) : Nat := (v % (2 ^ bits : Nat)).toNat

/-- The integer lies in the range of signed words of so many bits. -/
def fitsSigned (bits : Nat) (v : Int) : Bool :=
  -(2 ^ (bits - 1) : Nat) ≤ v && v < (2 ^ (bits - 1) : Nat)

/-- The integer lies in the range of unsigned words of so many bits. -/
def fitsUnsigned (bits : Nat) (v : Int) : Bool :=
  0 ≤ v && v < (2 ^ bits : Nat)

/-- The least multiple of `unit` that is at least `n`. -/
def roundUp (n unit : Nat) : Nat := (n + unit - 1) / unit * unit

namespace Bytes

/-- Two hexadecimal digits. -/
def hexByte (b : UInt8) : String := Text.hex 2 b.toNat

/-- The bytes in hexadecimal with spaces between them. -/
def spaced (bs : List UInt8) : String := String.intercalate " " (bs.map hexByte)

/-- The bytes in hexadecimal without a separator. -/
def packed (bs : List UInt8) : String := String.join (bs.map hexByte)

end Bytes

@[simp] theorem length_littleEndian (n v : Nat) : (littleEndian n v).length = n := by
  induction n generalizing v with
  | zero => rfl
  | succ n ih => simp [littleEndian, ih]

/-- Reading back the bytes of a number gives it modulo the size of the row. -/
theorem ofLittleEndian_littleEndian (n v : Nat) :
    ofLittleEndian (littleEndian n v) = v % 256 ^ n := by
  induction n generalizing v with
  | zero => simp [littleEndian, ofLittleEndian, Nat.mod_one]
  | succ n ih =>
    simp only [littleEndian, ofLittleEndian, ih]
    rw [Nat.pow_succ, Nat.mul_comm (256 ^ n) 256, Nat.mod_mul]
    simp [UInt8.toNat_ofNat']

/-- The number of a row of bytes is less than the size of the row. -/
theorem ofLittleEndian_lt (bs : List UInt8) : ofLittleEndian bs < 256 ^ bs.length := by
  induction bs with
  | nil => exact Nat.one_pos
  | cons b bs ih =>
    have hb := b.toNat_lt
    rw [ofLittleEndian, List.length_cons, Nat.pow_succ]
    omega

/-- The bytes of the number of a row are the row. -/
theorem littleEndian_ofLittleEndian (bs : List UInt8) :
    littleEndian bs.length (ofLittleEndian bs) = bs := by
  induction bs with
  | nil => rfl
  | cons b bs ih =>
    have hdiv : (b.toNat + 256 * ofLittleEndian bs) / 256 = ofLittleEndian bs := by
      have hb := b.toNat_lt
      omega
    rw [List.length_cons, ofLittleEndian, littleEndian, hdiv, ih]
    congr 1
    rw [← UInt8.toNat_inj, UInt8.toNat_ofNat']
    have hb := b.toNat_lt
    omega

/-- The bytes of a number are its digits in base 256. -/
theorem getElem?_littleEndian {n j : Nat} (v : Nat) (h : j < n) :
    (littleEndian n v)[j]? = some (UInt8.ofNat (v / 256 ^ j)) := by
  induction n generalizing v j with
  | zero => cases h
  | succ n ih =>
    cases j with
    | zero => simp [littleEndian]
    | succ j =>
      rw [littleEndian, List.getElem?_cons_succ, ih (v / 256) (Nat.lt_of_succ_lt_succ h),
        Nat.div_div_eq_div_mul, Nat.pow_succ, Nat.mul_comm]

theorem wrapped_lt (bits : Nat) (v : Int) : wrapped bits v < 2 ^ bits := by
  have h : (0 : Int) < ((2 ^ bits : Nat) : Int) := by exact_mod_cast Nat.two_pow_pos bits
  have h1 := Int.emod_lt_of_pos v h
  have h0 := Int.emod_nonneg v (Int.ne_of_gt h)
  unfold wrapped
  omega

end AsmBridge
