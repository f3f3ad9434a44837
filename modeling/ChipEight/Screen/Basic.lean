/-!
# Screen

Sixty-four by thirty-two pixels in two states, counted from the top left corner.
Every view of a screen is read through `get`, which is unset off the screen.
-/

set_option autoImplicit false

namespace ChipEight

/-- The pixels of the screen, row after row from the top. -/
structure Screen where
  pixels : Vector Bool 2048
deriving DecidableEq

namespace Screen

/-- A position in a row and a row have one pixel on the screen. -/
theorem index_lt {x y : Nat} (inside : x < 64 ∧ y < 32) : y * 64 + x < 2048 := by
  omega

def blank : Screen := ⟨Vector.replicate 2048 false⟩

def get (screen : Screen) (x y : Nat) : Bool :=
  if inside : x < 64 ∧ y < 32 then
    have := index_lt inside
    screen.pixels[y * 64 + x]
  else false

def toggle (screen : Screen) (x y : Nat) : Screen :=
  if inside : x < 64 ∧ y < 32 then
    have := index_lt inside
    ⟨screen.pixels.set (y * 64 + x) (!screen.pixels[y * 64 + x])⟩
  else screen

theorem get_blank (x y : Nat) : blank.get x y = false := by
  simp [get, blank]

/-- Toggling changes the pixel at its position, if that is on the screen, and no other. -/
theorem get_toggle (screen : Screen) (x y column row : Nat) :
    (screen.toggle x y).get column row =
      ((screen.get column row).xor
        (decide (column = x ∧ row = y ∧ x < 64 ∧ y < 32))) := by
  by_cases target : x < 64 ∧ y < 32
  · by_cases seen : column < 64 ∧ row < 32
    · by_cases same : column = x ∧ row = y
      · obtain ⟨rfl, rfl⟩ := same
        simp [get, toggle, target]
      · have apart : y * 64 + x ≠ row * 64 + column := by omega
        simp [get, toggle, target, seen, apart, show ¬ (column = x ∧ row = y) from same]
    · have apart : ¬ (column = x ∧ row = y ∧ x < 64 ∧ y < 32) := by omega
      simp [get, seen, apart]
  · simp [toggle, target]

end Screen

end ChipEight
