import ChipEight.Proofs.Screen.Counting
import Mathlib.Data.Nat.Bits

/-!
# Sprites over one another

What a list of drawings leaves of a pixel depends on how many of them have a set bit over it, and
only on whether that number is odd. So their order makes no difference, and drawn twice, in
whatever order, they leave the picture as it was.
-/

set_option autoImplicit false

namespace ChipEight.Screen

/-- A sprite with the place of its top left corner. -/
structure Placement where
  sprite : List UInt8
  x : UInt8
  y : UInt8
deriving DecidableEq, Repr

def Placement.covers (placement : Placement) (column row : Nat) : Bool :=
  decide (spriteCovers placement.sprite placement.x.toNat placement.y.toNat column row)

def drawPlaced (screen : Screen) (placement : Placement) : Screen :=
  (screen.draw placement.sprite placement.x placement.y).1

/-- Draws the sprites of a list in turn. -/
def drawAll (screen : Screen) (placements : List Placement) : Screen :=
  placements.foldl drawPlaced screen

theorem get_drawPlaced (screen : Screen) (placement : Placement) {column row : Nat}
    (inside : column < 64 ∧ row < 32) :
    (screen.drawPlaced placement).get column row =
      (screen.get column row ^^ placement.covers column row) :=
  get_draw screen placement.sprite placement.x placement.y inside

theorem get_drawAll (screen : Screen) (placements : List Placement) {column row : Nat}
    (inside : column < 64 ∧ row < 32) :
    (screen.drawAll placements).get column row =
      (screen.get column row ^^ (placements.countP (·.covers column row)).bodd) := by
  induction placements generalizing screen with
  | nil => rw [List.countP_nil, Nat.bodd_zero, Bool.xor_false]; rfl
  | cons placement later ih =>
      have one : (if placement.covers column row then 1 else 0 : Nat).bodd =
          placement.covers column row := by
        cases placement.covers column row with
        | false => rfl
        | true => rfl
      calc
        (screen.drawAll (placement :: later)).get column row
        _ = ((screen.drawPlaced placement).drawAll later).get column row := rfl
        _ = (screen.get column row ^^ placement.covers column row ^^
              (later.countP (·.covers column row)).bodd) := by
            rw [ih, get_drawPlaced screen placement inside]
        _ = (screen.get column row ^^
              ((placement :: later).countP (·.covers column row)).bodd) := by
            rw [List.countP_cons, Nat.bodd_add, one, Bool.xor_assoc, Bool.xor_comm (Nat.bodd _)]

theorem drawAll_perm (screen : Screen) {placements order : List Placement}
    (reordered : placements.Perm order) : screen.drawAll order = screen.drawAll placements := by
  apply eq_of_get_eq
  intro column right row low
  rw [get_drawAll screen _ ⟨right, low⟩, get_drawAll screen _ ⟨right, low⟩, reordered.countP_eq]

theorem drawAll_drawAll_perm (screen : Screen) {placements order : List Placement}
    (reordered : placements.Perm order) : (screen.drawAll placements).drawAll order = screen := by
  apply eq_of_get_eq
  intro column right row low
  rw [get_drawAll _ _ ⟨right, low⟩, get_drawAll screen _ ⟨right, low⟩, reordered.countP_eq,
    Bool.xor_assoc, Bool.xor_self, Bool.xor_false]

/-- The order of drawings makes no difference, and drawn once more in any order they undo
themselves. Each changes the number of set pixels by its set bits on the screen, those over a set
pixel counting against it, and collides when there are such. -/
theorem draws_commute_and_cancel (screen : Screen) :
    (∀ placements order : List Placement, placements.Perm order →
      screen.drawAll order = screen.drawAll placements ∧
        (screen.drawAll placements).drawAll order = screen) ∧
    (∀ sprite x y,
      let drawn := screen.draw sprite x y
      let overlapped := screen.overlap sprite x.toNat y.toNat
      drawn.1.litCount + 2 * overlapped =
          screen.litCount + bitsOnScreen sprite x.toNat y.toNat ∧
        (drawn.2 = true ↔ overlapped ≠ 0)) := by
  refine ⟨fun placements order reordered => ?_, fun sprite x y => ?_⟩
  · exact ⟨drawAll_perm screen reordered, drawAll_drawAll_perm screen reordered⟩
  · exact ⟨litCount_draw screen sprite x y, collided_draw_iff_overlap screen sprite x y⟩

/-- Three sprites across the bottom right corner, the first of them drawn a second time. -/
theorem draws_commute_and_cancel_corner :
    let wide : Placement := ⟨[0xff, 0xff], 60, 31⟩
    let left : Placement := ⟨[0xc1], 59, 31⟩
    let above : Placement := ⟨[0x18, 0x3c], 58, 30⟩
    let placements := [wide, left, above, wide]
    let order := [above, wide, wide, left]
    placements.Perm order ∧ blank.drawAll order = blank.drawAll placements ∧
      (blank.drawAll placements).drawAll order = blank ∧
      blank.drawAll placements ≠ blank := by
  intro wide left above placements order
  have reordered : placements.Perm order := by decide
  obtain ⟨sameOrder, -⟩ := draws_commute_and_cancel blank
  obtain ⟨same, restored⟩ := sameOrder placements order reordered
  have lit : (blank.drawAll placements).get 61 30 = true := by
    rw [get_drawAll blank placements (by decide), get_blank]
    decide
  refine ⟨reordered, same, restored, fun unchanged => ?_⟩
  rw [unchanged, get_blank] at lit
  cases lit

end ChipEight.Screen
