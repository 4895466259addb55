import AsmBridge.Proofs.Pool.LaidOut
import AsmBridge.Proofs.Target.Pieces
import AsmBridge.Proofs.Text.Cut
import AsmBridge.Proofs.Text.Digits

/-!
# The statements of a pool

The data of a pool are written in statements, each of which sets a number at an offset, lowest byte
first. Read back, the statements of a pool tile its data: every byte, those of the gaps and of the
tail among them, is set once, to its value, and every number stands at a multiple of its width. The
last statement declares the size (`Pool.renderPool_isTiledBy`).
-/

namespace AsmBridge

/-- What a statement of data says: a number of some bytes, lowest first, stands at an offset. -/
structure DataStatement where
  offset : ℕ
  width : ℕ
  value : ℕ
deriving DecidableEq

namespace DataStatement

/-- The statement sets the byte at a position. -/
def Sets (s : DataStatement) (i : ℕ) : Prop := s.offset ≤ i ∧ i < s.offset + s.width

instance (s : DataStatement) (i : ℕ) : Decidable (s.Sets i) :=
  inferInstanceAs (Decidable (_ ∧ _))

/-- The statement that a line makes of the data of a name. -/
def read? (name : String) (line : List Char) : Option DataStatement := do
  let place ← Text.after? ("DATA " ++ name ++ "<>+0x") line
  let (offset, rest) := Text.cutAt '(' place
  let count ← Text.after? "SB)/" (← rest)
  let (width, rest) := Text.cutAt ',' count
  let value ← Text.after? " $0x" (← rest)
  return {
    offset := ← Text.digits? 16 offset
    width := ← Text.digits? 10 width
    value := ← Text.digits? 16 value }

example : read? "LCDATA" "DATA LCDATA<>+0x01a(SB)/2, $0x0201".toList = some ⟨26, 2, 513⟩ := by
  decide +kernel

end DataStatement

/-- The size that a line declares for the data of a name. -/
def readSize? (name : String) (line : List Char) : Option ℕ :=
  (Text.after? ("GLOBL " ++ name ++ "<>(SB), RODATA|NOPTR, $") line).bind (Text.digits? 10)

/-- The statements set the bytes of the data, each byte once and nothing else. -/
structure IsTiledBy (data : List UInt8) (statements : List DataStatement) : Prop where
  width : ∀ s ∈ statements, s.width ∈ [8, 4, 2, 1]
  aligned : ∀ s ∈ statements, s.width ∣ s.offset
  value_lt : ∀ s ∈ statements, s.value < 256 ^ s.width
  once : ∀ i, statements.countP (fun s => s.Sets i) = if i < data.length then 1 else 0
  /-- The bytes of the number are its digits in base 256, lowest first. -/
  bytes : ∀ s ∈ statements, ∀ j < s.width,
    data[s.offset + j]? = some (UInt8.ofNat (s.value / 256 ^ j))

/-! ## Lines -/

/-- The statement of a piece of data. -/
def statementOf (p : ℕ × List UInt8) : DataStatement :=
  { offset := p.1, width := p.2.length, value := ofLittleEndian p.2 }

/-- The line of a piece reads as its statement. -/
lemma read?_poolLine (name : String) (p : ℕ × List UInt8) :
    DataStatement.read? name (poolLine name p).toList = some (statementOf p) := by
  have hline : (poolLine name p).toList =
      ("DATA " ++ name ++ "<>+0x").toList ++ (Text.hexDigits 3 p.1 ++ '(' :: ("SB)/".toList ++
        (Nat.toDigits 10 p.2.length ++ ',' :: (" $0x".toList ++
          Text.hexDigits (2 * p.2.length) (ofLittleEndian p.2))))) := by
    simp [poolLine, Text.hex]
  have hoffset : '(' ∉ Text.hexDigits 3 p.1 := fun hmem =>
    absurd (isAlphanum_of_mem_hexDigits hmem).1 (by decide)
  have hwidth : ',' ∉ Nat.toDigits 10 p.2.length := fun hmem =>
    absurd (isAlphanum_of_mem_toDigits (by decide) (by decide) hmem) (by decide)
  rw [DataStatement.read?, hline, Text.after?_append, Option.bind_eq_bind, Option.bind_some,
    Text.cutAt_append hoffset]
  simp only [Option.bind_eq_bind, Option.bind_some, Text.after?_append, Text.cutAt_append hwidth,
    digits?_hexDigits, digits?_toDigits (show 1 < 10 by decide) (by decide)]
  rfl

/-- The last line of a pool reads as its size. -/
lemma readSize?_globl (name : String) (n : ℕ) :
    readSize? name ("GLOBL " ++ name ++ "<>(SB), RODATA|NOPTR, $" ++ toString n).toList =
      some n := by
  rw [readSize?, String.toList_append, Text.after?_append, Option.bind_some, Nat.toString_eq_repr,
    Nat.toList_repr, digits?_toDigits (by decide) (by decide)]

/-! ## Pieces -/

/-- The pieces of a row of data tile it. -/
lemma isTiledBy_poolPieces (data : List UInt8) :
    IsTiledBy data ((poolPieces data).map statementOf) := by
  have hfits : ∀ offset left width : ℕ, (offset % width == 0 && width ≤ left) = true →
      width = 1 ∨ width ≤ left := by
    intro offset left width h
    rw [Bool.and_eq_true, decide_eq_true_eq] at h
    exact .inr h.2
  constructor
  · intro s hs
    obtain ⟨p, hp, rfl⟩ := List.mem_map.mp hs
    obtain ⟨name, hname⟩ := exists_width_of_mem_pieces hfits hp
    have hwidths : ∀ q ∈ literalWidths, q.1 ∈ [8, 4, 2, 1] := by decide
    exact hwidths _ hname
  · intro s hs
    obtain ⟨p, hp, rfl⟩ := List.mem_map.mp hs
    rcases fits_of_mem_pieces hfits hp with hone | ⟨left, hfit⟩
    · have hdvd : p.2.length ∣ p.1 := hone ▸ one_dvd p.1
      exact hdvd
    · rw [Bool.and_eq_true, beq_iff_eq] at hfit
      exact Nat.dvd_of_mod_eq_zero hfit.1
  · intro s hs
    obtain ⟨p, -, rfl⟩ := List.mem_map.mp hs
    exact ofLittleEndian_lt p.2
  · intro i
    have hcount : (poolPieces data).countP (fun p => decide (p.1 ≤ i ∧ i < p.1 + p.2.length)) =
        if 0 ≤ i ∧ i < 0 + data.length then 1 else 0 := countP_pieces hfits i
    simp only [Nat.zero_le, true_and, Nat.zero_add] at hcount
    rw [List.countP_map]
    exact hcount
  · intro s hs j hj
    obtain ⟨p, hp, rfl⟩ := List.mem_map.mp hs
    have hj' : j < p.2.length := hj
    obtain ⟨k, hoffset, hbytes⟩ := exists_offset_of_mem_pieces hp
    have hdata : data[p.1 + j]? = p.2[j]? := by
      rw [← hbytes, List.getElem?_take_of_lt hj', List.getElem?_drop, hoffset, Nat.zero_add]
    have hbyte : p.2[j]? = some (UInt8.ofNat (ofLittleEndian p.2 / 256 ^ j)) := by
      rw [← getElem?_littleEndian _ hj', littleEndian_ofLittleEndian]
    exact hdata.trans hbyte

/-- The lines of a row of data read as the statements of its pieces. -/
lemma mapM_read?_poolLine (name : String) (ps : List (ℕ × List UInt8)) :
    (ps.map (poolLine name)).mapM (fun line => DataStatement.read? name line.toList) =
      some (ps.map statementOf) := by
  induction ps with
  | nil => rfl
  | cons p ps ih =>
    rw [List.map_cons, List.mapM_cons, read?_poolLine, ih]
    rfl

namespace Pool

/-- Whatever is done with a pool, if it has slots, then its statements tile its data, and the last
line declares its size. They are written unless there is no room for so many bytes. -/
theorem renderPool_isTiledBy {name : String} {steps : List Step} {p : Pool}
    (hp : steps.foldl after { name := name } = p) (hslots : p.slots ≠ []) :
    ∃ lines last statements,
      renderPool p = (roomFor p.size).map (fun _ => lines ++ [last]) ∧
      lines.mapM (fun line => DataStatement.read? name line.toList) = some statements ∧
      IsTiledBy p.data statements ∧
      p.data.length = p.size ∧ readSize? name last.toList = some p.size := by
  obtain ⟨hname, requests, hfilled⟩ := exists_isFilledBy name steps
  rw [hp] at hname hfilled
  have hlength : p.data.length = p.size := length_data hfilled.align_pos
  have hrender : renderPool p = (roomFor p.size).map fun _ =>
      (poolPieces p.data).map (poolLine name) ++
        ["GLOBL " ++ name ++ "<>(SB), RODATA|NOPTR, $" ++ toString p.data.length] := by
    rw [renderPool, if_neg (by simpa using hslots), ← hname, contents]
    cases roomFor p.size <;> rfl
  exact ⟨_, _, _, hrender, mapM_read?_poolLine name _, isTiledBy_poolPieces p.data, hlength,
    (readSize?_globl name _).trans (congrArg some hlength)⟩

/-- A pool with a gap between its slots and a tail, which is asked for its size and fixed. -/
theorem renderPool_isTiledBy_of_gap :
    let steps : List Step := [.request ({ symbol := "mask", data := [1, 2, 3] }, 1),
      .request ({ symbol := "step", data := [4, 5, 6, 7, 8], align := 4 }, 8), .question .size]
    let p := steps.foldl after { name := "LCDATA" }
    p.slots ≠ [] ∧ ∃ lines last statements,
      renderPool p = (roomFor p.size).map (fun _ => lines ++ [last]) ∧
      lines.mapM (fun line => DataStatement.read? "LCDATA" line.toList) = some statements ∧
      IsTiledBy p.data statements ∧
      p.data.length = p.size ∧ readSize? "LCDATA" last.toList = some p.size := by
  intro steps p
  have hslots : p.slots ≠ [] := by decide
  exact ⟨hslots, renderPool_isTiledBy rfl hslots⟩

end Pool

end AsmBridge
