import ChipEight.Proofs.Cells.Machine

/-!
# Drawing in cells

The loops over rows and bits, which stop at the bottom edge and pass over what lies past
the right one, leave the picture that toggling position after position leaves, and never
look for a pixel outside of it.
-/

set_option autoImplicit false

namespace ChipEight

namespace Screen

theorem toggleAll_append (screen : Screen) (collided : Bool) (first later : List (Nat × Nat)) :
    screen.toggleAll collided (first ++ later) =
      (screen.toggleAll collided first).1.toggleAll (screen.toggleAll collided first).2 later := by
  induction first generalizing screen collided with
  | nil => rfl
  | cons position rest ih => simp only [List.cons_append, toggleAll, ih]

theorem get_of_outside {x y : Nat} (screen : Screen) (outside : ¬ (x < 64 ∧ y < 32)) :
    screen.get x y = false := by
  rw [get, dif_neg outside]

theorem toggle_of_outside {x y : Nat} (screen : Screen) (outside : ¬ (x < 64 ∧ y < 32)) :
    screen.toggle x y = screen := by
  rw [toggle, dif_neg outside]

theorem toggleAll_below (screen : Screen) (collided : Bool) (positions : List (Nat × Nat))
    (below : ∀ position ∈ positions, 32 ≤ position.2) :
    screen.toggleAll collided positions = (screen, collided) := by
  induction positions with
  | nil => rfl
  | cons position rest ih =>
      have outside : ¬ (position.1 < 64 ∧ position.2 < 32) := by
        have low := below position (by simp)
        omega
      rw [toggleAll, get_of_outside screen outside, toggle_of_outside screen outside]
      exact ih fun later member => below later (by simp [member])

theorem row_of_mem_rowPixels {byte : UInt8} {x y : Nat} {position : Nat × Nat}
    (member : position ∈ rowPixels byte x y) : position.2 = y := by
  obtain ⟨column, _, found⟩ := List.mem_filterMap.mp member
  split at found
  · cases found; rfl
  · cases found

theorem le_of_mem_spritePixels {sprite : List UInt8} {x y : Nat} {position : Nat × Nat}
    (member : position ∈ spritePixels sprite x y) : y ≤ position.2 := by
  induction sprite generalizing y with
  | nil => cases member
  | cons byte below ih =>
      rcases List.mem_append.mp member with here | later
      · exact Nat.le_of_eq (row_of_mem_rowPixels here).symm
      · exact Nat.le_of_succ_le (ih later)

/-- A screen with the collision flag, in cells. -/
def inCells (picture : Screen × Bool) : Array Bool × Bool :=
  (picture.1.pixels.toArray, picture.2)

end Screen

namespace CellMachine

open Cells Screen

theorem drawBit_inCells (byte : UInt8) (x y column : Nat) (picture : Screen × Bool)
    (above : y < 32) :
    drawBit byte x y column (Screen.inCells picture) =
      .ok (Screen.inCells (picture.1.toggleAll picture.2
        (if byte.toNat.testBit (7 - column) then [(x + column, y)] else []))) := by
  obtain ⟨screen, collided⟩ := picture
  cases set : byte.toNat.testBit (7 - column) with
  | false =>
      rw [drawBit, if_pos (.inl set)]
      rfl
  | true =>
      by_cases past : 64 ≤ x + column
      · have outside : ¬ (x + column < 64 ∧ y < 32) := by omega
        rw [drawBit, if_pos (.inr past), if_pos rfl, toggleAll,
          get_of_outside screen outside, toggle_of_outside screen outside]
        rfl
      · have inside : x + column < 64 ∧ y < 32 := by omega
        have position := index_lt inside
        have passed : ¬ (byte.toNat.testBit (7 - column) = false ∨ 64 ≤ x + column) := by
          simp [set, past]
        rw [drawBit, if_neg passed]
        simp only [Screen.inCells]
        rw [fetch_eq _ _ (by simpa using position), ok_bind,
          store_eq _ _ _ (by simpa using position), ok_bind]
        rw [if_pos trivial, toggleAll, Screen.get, toggle, dif_pos inside, dif_pos inside,
          Bool.or_comm]
        simp [toggleAll, pure, Except.pure, Array.setIfInBounds, position]

private theorem drawColumns_inCells (byte : UInt8) (x y : Nat) (above : y < 32)
    (columns : List Nat) (picture : Screen × Bool) :
    columns.foldlM (fun picture column => drawBit byte x y column picture)
        (Screen.inCells picture) =
      .ok (Screen.inCells (picture.1.toggleAll picture.2 (columns.filterMap fun column =>
        if byte.toNat.testBit (7 - column) then some (x + column, y) else none))) := by
  induction columns generalizing picture with
  | nil => rfl
  | cons column rest ih =>
      rw [List.foldlM_cons, drawBit_inCells byte x y column picture above, ok_bind, ih]
      rw [List.filterMap_cons]
      cases byte.toNat.testBit (7 - column) <;> rfl

theorem drawRow_inCells (byte : UInt8) (x y : Nat) (above : y < 32)
    (picture : Screen × Bool) :
    drawRow byte x y (Screen.inCells picture) =
      .ok (Screen.inCells (picture.1.toggleAll picture.2 (rowPixels byte x y))) :=
  drawColumns_inCells byte x y above (List.range 8) picture

theorem drawRows_inCells (x : Nat) (sprite : List UInt8) (y : Nat) (picture : Screen × Bool) :
    drawRows x sprite y (Screen.inCells picture) =
      .ok (Screen.inCells (picture.1.toggleAll picture.2 (spritePixels sprite x y))) := by
  induction sprite generalizing y picture with
  | nil => rfl
  | cons byte below ih =>
      rw [drawRows]
      split
      case isTrue past =>
          rw [toggleAll_below picture.1 picture.2 _ fun position member =>
            Nat.le_trans past (le_of_mem_spritePixels member)]
          rfl
      case isFalse inside =>
          rw [drawRow_inCells byte x y (by omega) picture, ok_bind, ih, spritePixels,
            toggleAll_append]

end CellMachine

end ChipEight
