import AsmBridge.Proofs.Abi.Layout

/-!
# The room of a frame

The size of a frame is rounded up to its alignment, and its base is rounded down from a point that
is measured from the top. The slack in the size is what the second rounding can cost, so that for
every stack pointer of the caller the base has all parts of the frame around it: above it the saved
frame pointer, the return address and the spilled arguments, and below it the room that the body and
its calls need (`FrameLayout.parts_inFrame`).
-/

namespace AsmBridge

namespace FrameLayout

variable {l : FrameLayout} {sp : ℤ}

/-- Above the base there are two words and the spilled arguments in the frame. -/
lemma spills_le_size (hpos : 0 < l.align) (sp : ℤ) :
    l.baseAt sp + 16 + 8 * l.spills ≤ sp + l.size := by
  have htop : l.baseAt sp ≤ sp + l.baseOffset := (isGreatest_baseAt hpos sp).1.2
  unfold baseOffset at htop
  omega

/-- The parts of a frame lie in it, around a base that is the largest multiple of the alignment not
above its offset, for every stack pointer of the caller that is a multiple of eight. The sizes of
the parts may be any numbers, and any multiple of eight may be the alignment. -/
theorem parts_inFrame (l : FrameLayout) (hframed : l.framed = true) (hpos : 0 < l.align)
    (halign : 8 ∣ l.align) (hsp : 8 ∣ sp) :
    l.align ∣ l.size ∧ ∃ b, IsGreatest {b | l.align ∣ b ∧ b ≤ sp + l.baseOffset} b ∧
      b + 16 + 8 * l.spills ≤ sp + l.size ∧
      sp ≤ b - l.realignPad - l.locals - 8 * l.pushes - l.callReserve := by
  refine ⟨l.align_dvd_size, l.baseAt sp, isGreatest_baseAt hpos sp, spills_le_size hpos sp, ?_⟩
  have hroom : sp + l.room ≤ l.baseAt sp := room_le_baseAt hpos halign hframed hsp
  unfold room at hroom
  omega

/-- A frame with all of its parts, aligned to no power of two, at a stack pointer for which rounding
drops as much as it can. -/
theorem parts_inFrame_of_worst :
    let l : FrameLayout :=
      { locals := 40, spills := 3, pushes := 5, callReserve := 33, align := 48, realign := 40 }
    (l.framed = true ∧ 0 < l.align ∧ 8 ∣ l.align ∧ (8 : ℤ) ∣ 1184) ∧ l.align ∣ l.size ∧
      ∃ b, IsGreatest {b | l.align ∣ b ∧ b ≤ 1184 + l.baseOffset} b ∧
        b + 16 + 8 * l.spills ≤ 1184 + l.size ∧
        1184 ≤ b - l.realignPad - l.locals - 8 * l.pushes - l.callReserve := by
  intro l
  have hsp : (8 : ℤ) ∣ 1184 := by decide
  exact ⟨⟨rfl, by decide, by decide, hsp⟩, l.parts_inFrame rfl (by decide) (by decide) hsp⟩

end FrameLayout

end AsmBridge
