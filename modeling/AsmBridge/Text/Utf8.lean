/-!
# Characters from bytes

`String.toList` looks for each character at its position. `chars` gives the same list by recursion
on the bytes (`chars_eq_toList`), so that a text that is written out can be read in a proof.
-/

namespace AsmBridge.Text

-- Powers of natural numbers are those of the core library.
attribute [local instance (high)] instPowNat

/-- Bytes that are decoded from the last one on. -/
structure Decoded where
  /-- The characters that are complete. -/
  chars : List Char := []
  /-- How many bytes stand in front of them that continue a character. -/
  count : Nat := 0
  /-- What these give. -/
  value : Nat := 0

/-- The mark in the first byte of a character that so many bytes continue. -/
def firstMark (count : Nat) : Nat := [0, 192, 224, 240].getD count 0

/-- One byte more at the front. -/
def Decoded.cons (b : UInt8) (d : Decoded) : Decoded :=
  let n := b.toNat
  if 128 ≤ n && n < 192 then
    { d with count := d.count + 1, value := (n - 128) * 64 ^ d.count + d.value }
  else { chars := Char.ofNat ((n - firstMark d.count) * 64 ^ d.count + d.value) :: d.chars }

/-- The characters of a text. -/
def chars (s : String) : List Char := (s.toByteArray.data.toList.foldr Decoded.cons {}).chars

/-- A byte that continues a character. -/
theorem Decoded.cons_next {b : UInt8} {n : Nat} (hb : b.toNat = n + 128) (h : n < 64)
    (d : Decoded) :
    d.cons b = { d with count := d.count + 1, value := n * 64 ^ d.count + d.value } := by
  have hnext : (decide (128 ≤ n + 128) && decide (n + 128 < 192)) = true := by
    simp
    omega
  rw [Decoded.cons, hb, hnext, Nat.add_sub_cancel]
  rfl

/-- The first byte of a character completes it. -/
theorem Decoded.cons_first {b : UInt8} {n : Nat} {d : Decoded} (hb : b.toNat = n + firstMark d.count)
    (h : b.toNat < 128 ∨ 192 ≤ b.toNat) :
    d.cons b = { chars := Char.ofNat (n * 64 ^ d.count + d.value) :: d.chars } := by
  have hfirst : (decide (128 ≤ b.toNat) && decide (b.toNat < 192)) = false := by
    simp
    omega
  rw [Decoded.cons, hfirst, hb, Nat.add_sub_cancel]
  rfl

/-- The bytes of a character are decoded to it. -/
theorem foldr_utf8EncodeChar (c : Char) (cs : List Char) :
    (String.utf8EncodeChar c).foldr Decoded.cons { chars := cs } = { chars := c :: cs } := by
  have hv : c.val.toNat < 1114112 := by
    have := c.valid
    unfold UInt32.isValidChar Nat.isValidChar at this
    omega
  have hc : Char.ofNat c.val.toNat = c := Char.ofNat_toNat c
  have hbyte : ∀ n < 256, (UInt8.ofNat n).toNat = n := fun n hn => UInt8.toNat_ofNat_of_lt' hn
  unfold String.utf8EncodeChar
  generalize c.val.toNat = v at hv hc
  subst hc
  dsimp only
  split
  · have h₀ := hbyte v (by omega)
    rw [List.foldr_cons, List.foldr_nil, Decoded.cons_first (n := v) h₀ (by omega)]
    simp
  split
  · have h₀ := hbyte (v % 64 + 128) (by omega)
    have h₁ := hbyte (v / 64 % 32 + 192) (by omega)
    rw [List.foldr_cons, List.foldr_cons, List.foldr_nil, Decoded.cons_next h₀ (by omega),
      Decoded.cons_first h₁ (by omega)]
    congr 3
    dsimp only
    omega
  split
  · have h₀ := hbyte (v % 64 + 128) (by omega)
    have h₁ := hbyte (v / 64 % 64 + 128) (by omega)
    have h₂ := hbyte (v / 4096 % 16 + 224) (by omega)
    rw [List.foldr_cons, List.foldr_cons, List.foldr_cons, List.foldr_nil,
      Decoded.cons_next h₀ (by omega), Decoded.cons_next h₁ (by omega),
      Decoded.cons_first h₂ (by omega)]
    congr 3
    dsimp only
    omega
  · have h₀ := hbyte (v % 64 + 128) (by omega)
    have h₁ := hbyte (v / 64 % 64 + 128) (by omega)
    have h₂ := hbyte (v / 4096 % 64 + 128) (by omega)
    have h₃ := hbyte (v / 262144 % 8 + 240) (by omega)
    rw [List.foldr_cons, List.foldr_cons, List.foldr_cons, List.foldr_cons, List.foldr_nil,
      Decoded.cons_next h₀ (by omega), Decoded.cons_next h₁ (by omega),
      Decoded.cons_next h₂ (by omega), Decoded.cons_first h₃ (by omega)]
    congr 3
    dsimp only
    omega

/-- The characters of a text are what its bytes are decoded to. -/
theorem chars_eq_toList (s : String) : chars s = s.toList := by
  have hbytes : s.toByteArray.data.toList = s.toList.flatMap String.utf8EncodeChar := by
    rw [← String.utf8Encode_toList, List.utf8Encode, List.data_toByteArray]
  have hfold : ∀ cs : List Char, (cs.flatMap String.utf8EncodeChar).foldr Decoded.cons {} =
      { chars := cs } := by
    intro cs
    induction cs with
    | nil => rfl
    | cons c rest ih => rw [List.flatMap_cons, List.foldr_append, ih, foldr_utf8EncodeChar]
  rw [chars, hbytes, hfold]

@[simp] theorem chars_ofList (s : List Char) : chars (String.ofList s) = s := by
  rw [chars_eq_toList, String.toList_ofList]
example : chars "aß→😀" = ['a', 'ß', '→', '😀'] := by decide

end AsmBridge.Text
