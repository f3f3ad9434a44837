import ChipEight.Memory.Program

/-!
# Memory laid out for a program

What each cell holds once a program is laid out, whatever was there before; at its usual place:
the font, zeros, the program and zeros again.
-/

set_option autoImplicit false

namespace ChipEight.ProgramMemory

/-- The program stands before the font, and the font before zeros. -/
theorem getElem_layout_at (address : UInt16) (program : List UInt8) {cell : Nat}
    (inside : cell < ramSize) :
    (layout address program).cells[cell] =
      (if address.toNat ≤ cell then program[cell - address.toNat]? else none).getD
        (Font.glyphs[cell]?.getD 0) := by
  have bottom : Font.address.toNat = 0 := rfl
  have zero : (Memory.zeroed ramSize).cells[cell] = 0 := Vector.getElem_replicate inside
  rw [layout, Memory.getElem_cells_place _ _ _ _ inside,
    Memory.getElem_cells_place _ _ _ _ inside, bottom, if_pos (Nat.zero_le cell), zero,
    Nat.sub_zero]
  split <;> rfl

theorem getElem_layout (program : List UInt8) {cell : Nat} (inside : cell < ramSize) :
    (layout programStart program).cells[cell] =
      if 512 ≤ cell then program[cell - 512]?.getD 0 else Font.glyphs[cell]?.getD 0 := by
  have start : programStart.toNat = 512 := by decide
  rw [getElem_layout_at programStart program inside, start]
  by_cases above : 512 ≤ cell
  · have past : Font.glyphs[cell]? = none :=
      List.getElem?_eq_none (Nat.le_trans (by decide) above)
    rw [if_pos above, if_pos above, past, Option.getD_none]
  · rw [if_neg above, if_neg above, Option.getD_none]

theorem toList_layout {program : List UInt8} (fits : program.length ≤ 3584) :
    (layout programStart program).cells.toList =
      Font.glyphs ++ List.replicate 432 0 ++ program ++
        List.replicate (3584 - program.length) 0 := by
  have font : Font.glyphs.length = 80 := rfl
  apply List.ext_getElem
  · simp only [Vector.length_toList, List.length_append, List.length_replicate, font, ramSize]
    omega
  · intro cell inside _
    have inside : cell < ramSize := by simpa using inside
    rw [Vector.getElem_toList, getElem_layout program inside]
    simp only [List.getElem_append, List.length_append, List.length_replicate, font,
      List.getElem_replicate]
    rcases Nat.lt_or_ge cell 512 with below | above
    · rw [if_neg (Nat.not_le.mpr below), dif_pos (by omega), dif_pos below]
      by_cases drawn : cell < 80
      · rw [dif_pos drawn, List.getElem?_eq_getElem drawn, Option.getD_some]
        rfl
      · rw [dif_neg drawn, List.getElem?_eq_none (Nat.le_of_not_lt drawn), Option.getD_none]
    · rw [if_pos above]
      by_cases within : cell - 512 < program.length
      · rw [dif_pos (by omega), dif_neg (Nat.not_lt.mpr above),
          List.getElem?_eq_getElem within, Option.getD_some]
      · rw [dif_neg (by omega), List.getElem?_eq_none (Nat.le_of_not_lt within),
          Option.getD_none]

end ChipEight.ProgramMemory
