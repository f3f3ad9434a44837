import ChipEight.Screen.Basic

/-!
# Sprites

A sprite is a list of bytes, one a row, most significant bit leftmost. Drawing
toggles the pixel under every set bit. What lies past an edge is clipped: a pixel
off the screen is neither toggled nor looked at.
-/

set_option autoImplicit false

namespace ChipEight.Screen

/-- The positions under the set bits of one sprite row whose leftmost bit is at (x, y). -/
def rowPixels (byte : UInt8) (x y : Nat) : List (Nat × Nat) :=
  (List.range 8).filterMap fun column =>
    if byte.toNat.testBit (7 - column) then some (x + column, y) else none

/-- The positions under the set bits of a sprite whose top left corner is at (x, y),
on the screen or off it. -/
def spritePixels : (sprite : List UInt8) → (x y : Nat) → List (Nat × Nat)
  | [], _, _ => []
  | byte :: below, x, y => rowPixels byte x y ++ spritePixels below x (y + 1)

/-- Toggles the pixels at the given positions in turn. The flag tells whether one of
them was set when its turn came, or holds already. -/
def toggleAll (screen : Screen) (collided : Bool) : List (Nat × Nat) → Screen × Bool
  | [] => (screen, collided)
  | (x, y) :: rest =>
    let collided := screen.get x y || collided
    toggleAll (screen.toggle x y) collided rest

/-- Draws a sprite with its top left corner at (x, y), and tells whether a set pixel
was unset by that. -/
def draw (screen : Screen) (sprite : List UInt8) (x y : UInt8) : Screen × Bool :=
  screen.toggleAll false (spritePixels sprite x.toNat y.toNat)

/-- Whether the bit of a sprite that falls on a position is set, for a sprite with its
top left corner at (x, y). -/
def spriteCovers (sprite : List UInt8) (x y column row : Nat) : Prop :=
  x ≤ column ∧ column < x + 8 ∧ y ≤ row ∧
    ∃ byte, sprite[row - y]? = some byte ∧ byte.toNat.testBit (7 - (column - x)) = true

end ChipEight.Screen
