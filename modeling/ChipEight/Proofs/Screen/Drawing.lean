import ChipEight.Proofs.Cells.Sprite
import Mathlib.Data.List.Basic
import Mathlib.Data.List.Nodup

/-!
# What drawing does to a picture

A sprite has one bit at most for every pixel, so drawing toggles no pixel twice and finds
each of them as the old picture has it. That makes the new picture the exclusive or of the
old one with the sprite, as far as the sprite is on the screen.
-/

set_option autoImplicit false

namespace ChipEight.Screen

/-! ## The positions of a sprite -/

theorem mem_rowPixels {byte : UInt8} {x y column row : Nat} :
    (column, row) ∈ rowPixels byte x y ↔
      row = y ∧ x ≤ column ∧ column < x + 8 ∧ byte.toNat.testBit (7 - (column - x)) = true := by
  constructor
  · intro among
    obtain ⟨bit, inside, found⟩ := List.mem_filterMap.mp among
    have small : bit < 8 := List.mem_range.mp inside
    split at found
    case isFalse unset => cases found
    case isTrue set =>
        cases found
        refine ⟨rfl, Nat.le_add_right x bit, by omega, ?_⟩
        rw [Nat.add_sub_cancel_left]
        exact set
  · rintro ⟨rfl, left, right, set⟩
    refine List.mem_filterMap.mpr ⟨column - x, List.mem_range.mpr (by omega), ?_⟩
    rw [if_pos set, Nat.add_sub_cancel' left]

theorem mem_spritePixels {sprite : List UInt8} {x y column row : Nat} :
    (column, row) ∈ spritePixels sprite x y ↔ spriteCovers sprite x y column row := by
  induction sprite generalizing y with
  | nil => simp [spritePixels, spriteCovers]
  | cons byte below ih =>
      rw [spritePixels, List.mem_append, mem_rowPixels, ih]
      constructor
      · rintro (⟨rfl, left, right, set⟩ | ⟨left, right, lower, found, here, set⟩)
        · exact ⟨left, right, Nat.le_refl row, byte, by rw [Nat.sub_self]; rfl, set⟩
        · refine ⟨left, right, Nat.le_of_succ_le lower, found, ?_, set⟩
          rw [show row - y = row - (y + 1) + 1 by omega]
          exact here
      · rintro ⟨left, right, lower, found, here, set⟩
        rcases Nat.eq_or_lt_of_le lower with rfl | lower
        · rw [Nat.sub_self] at here
          cases here
          exact .inl ⟨rfl, left, right, set⟩
        · refine .inr ⟨left, right, lower, found, ?_, set⟩
          rw [show row - y = row - (y + 1) + 1 by omega] at here
          exact here

instance (sprite : List UInt8) (x y column row : Nat) :
    Decidable (spriteCovers sprite x y column row) :=
  decidable_of_iff ((column, row) ∈ spritePixels sprite x y) mem_spritePixels

theorem nodup_rowPixels (byte : UInt8) (x y : Nat) : (rowPixels byte x y).Nodup := by
  refine List.Nodup.filterMap ?_ List.nodup_range
  intro first second position ofFirst ofSecond
  simp only [Option.mem_def, Option.ite_none_right_eq_some, Option.some.injEq] at ofFirst ofSecond
  obtain ⟨-, rfl⟩ := ofFirst
  obtain ⟨-, same⟩ := ofSecond
  exact (Nat.add_left_cancel (congrArg Prod.fst same)).symm

theorem nodup_spritePixels (sprite : List UInt8) (x y : Nat) :
    (spritePixels sprite x y).Nodup := by
  induction sprite generalizing y with
  | nil => exact List.nodup_nil
  | cons byte below ih =>
      refine (nodup_rowPixels byte x y).append (ih (y + 1)) ?_
      intro position here later
      have level := row_of_mem_rowPixels here
      have lower := le_of_mem_spritePixels later
      omega

/-! ## Toggling -/

theorem get_toggleAll (screen : Screen) (collided : Bool) {positions : List (Nat × Nat)}
    (distinct : positions.Nodup) {column row : Nat} (inside : column < 64 ∧ row < 32) :
    (screen.toggleAll collided positions).1.get column row =
      (screen.get column row ^^ decide ((column, row) ∈ positions)) := by
  induction positions generalizing screen collided with
  | nil => simp [toggleAll]
  | cons position rest ih =>
      obtain ⟨new, distinct⟩ := List.nodup_cons.mp distinct
      rw [toggleAll, ih _ _ distinct, get_toggle]
      by_cases here : (column, row) = position
      · subst here
        simp [new, inside]
      · have elsewhere : ¬ (column = position.1 ∧ row = position.2 ∧
            position.1 < 64 ∧ position.2 < 32) := by
          rintro ⟨rfl, rfl, -⟩
          exact here rfl
        simp [elsewhere, here]

theorem get_toggle_of_ne (screen : Screen) {position other : Nat × Nat}
    (apart : other ≠ position) :
    (screen.toggle position.1 position.2).get other.1 other.2 = screen.get other.1 other.2 := by
  have elsewhere : ¬ (other.1 = position.1 ∧ other.2 = position.2 ∧
      position.1 < 64 ∧ position.2 < 32) :=
    fun ⟨sameColumn, sameRow, _⟩ => apart (Prod.ext sameColumn sameRow)
  rw [get_toggle, decide_eq_false elsewhere, Bool.xor_false]

/-- No position comes twice, so each is looked at before it is toggled. -/
theorem collided_toggleAll (screen : Screen) (collided : Bool) {positions : List (Nat × Nat)}
    (distinct : positions.Nodup) :
    (screen.toggleAll collided positions).2 = true ↔
      collided = true ∨ ∃ position ∈ positions, screen.get position.1 position.2 = true := by
  induction positions generalizing screen collided with
  | nil => simp [toggleAll]
  | cons position rest ih =>
      obtain ⟨new, distinct⟩ := List.nodup_cons.mp distinct
      have kept : ∀ later ∈ rest, (screen.toggle position.1 position.2).get later.1 later.2 =
          screen.get later.1 later.2 :=
        fun later among => screen.get_toggle_of_ne (ne_of_mem_of_not_mem among new)
      rw [toggleAll, ih _ _ distinct, Bool.or_eq_true, List.exists_mem_cons_iff]
      constructor
      · rintro ((here | before) | ⟨later, among, lit⟩)
        · exact .inr (.inl here)
        · exact .inl before
        · exact .inr (.inr ⟨later, among, kept later among ▸ lit⟩)
      · rintro (before | here | ⟨later, among, lit⟩)
        · exact .inl (.inr before)
        · exact .inl (.inl here)
        · exact .inr ⟨later, among, (kept later among).trans lit⟩

theorem eq_of_get_eq {first second : Screen}
    (same : ∀ column < 64, ∀ row < 32, first.get column row = second.get column row) :
    first = second := by
  obtain ⟨firstPixels⟩ := first
  obtain ⟨secondPixels⟩ := second
  congr 1
  ext position inside
  have shown : position % 64 < 64 ∧ position / 64 < 32 := by omega
  have here := same (position % 64) shown.1 (position / 64) shown.2
  rw [get, get, dif_pos shown, dif_pos shown] at here
  have whole : position / 64 * 64 + position % 64 = position := Nat.div_add_mod' position 64
  simpa only [whole] using here

/-! ## Drawing -/

theorem get_draw (screen : Screen) (sprite : List UInt8) (x y : UInt8) {column row : Nat}
    (inside : column < 64 ∧ row < 32) :
    (screen.draw sprite x y).1.get column row =
      (screen.get column row ^^ decide (spriteCovers sprite x.toNat y.toNat column row)) := by
  rw [draw, get_toggleAll screen false (nodup_spritePixels sprite _ _) inside]
  congr 1
  exact decide_eq_decide.mpr mem_spritePixels

theorem collided_draw (screen : Screen) (sprite : List UInt8) (x y : UInt8) :
    (screen.draw sprite x y).2 = true ↔ ∃ column < 64, ∃ row < 32,
      spriteCovers sprite x.toNat y.toNat column row ∧ screen.get column row = true := by
  rw [draw, collided_toggleAll screen false (nodup_spritePixels sprite _ _)]
  constructor
  · rintro (before | ⟨⟨column, row⟩, among, lit⟩)
    · cases before
    · have shown : column < 64 ∧ row < 32 := by
        by_contra outside
        rw [get_of_outside screen outside] at lit
        cases lit
      exact ⟨column, shown.1, row, shown.2, mem_spritePixels.mp among, lit⟩
  · rintro ⟨column, -, row, -, covered, lit⟩
    exact .inr ⟨(column, row), mem_spritePixels.mpr covered, lit⟩

/-- Drawing a sprite again at the same place takes it away. -/
theorem draw_draw (screen : Screen) (sprite : List UInt8) (x y : UInt8) :
    ((screen.draw sprite x y).1.draw sprite x y).1 = screen := by
  apply eq_of_get_eq
  intro column right row low
  rw [get_draw _ sprite x y ⟨right, low⟩, get_draw screen sprite x y ⟨right, low⟩, Bool.xor_assoc,
    Bool.xor_self, Bool.xor_false]

/-- The second drawing collides where the first one has set a pixel. -/
theorem collided_draw_draw (screen : Screen) (sprite : List UInt8) (x y : UInt8) :
    ((screen.draw sprite x y).1.draw sprite x y).2 = true ↔ ∃ column < 64, ∃ row < 32,
      spriteCovers sprite x.toNat y.toNat column row ∧ screen.get column row = false := by
  have opposite : ∀ column < 64, ∀ row < 32, spriteCovers sprite x.toNat y.toNat column row →
      (screen.draw sprite x y).1.get column row = !screen.get column row := by
    intro column right row low covered
    rw [get_draw screen sprite x y ⟨right, low⟩, decide_eq_true covered, Bool.xor_true]
  rw [collided_draw]
  constructor
  · rintro ⟨column, right, row, low, covered, lit⟩
    rw [opposite column right row low covered, Bool.not_eq_true'] at lit
    exact ⟨column, right, row, low, covered, lit⟩
  · rintro ⟨column, right, row, low, covered, dark⟩
    refine ⟨column, right, row, low, covered, ?_⟩
    rw [opposite column right row low covered, dark, Bool.not_false]

theorem not_covers_of_offScreen {sprite : List UInt8} {x y column row : Nat}
    (offScreen : 64 ≤ x ∨ 32 ≤ y) (inside : column < 64 ∧ row < 32) :
    ¬ spriteCovers sprite x y column row := by
  rintro ⟨left, -, lower, -⟩
  omega

/-- Two sprites that have the same set bits on the screen draw the same. -/
theorem draw_congr (screen : Screen) {sprite other : List UInt8} {x y left top : UInt8}
    (same : ∀ column < 64, ∀ row < 32, spriteCovers sprite x.toNat y.toNat column row ↔
      spriteCovers other left.toNat top.toNat column row) :
    screen.draw sprite x y = screen.draw other left top := by
  refine Prod.ext (eq_of_get_eq fun column right row low => ?_) (Bool.eq_iff_iff.mpr ?_)
  · rw [get_draw screen sprite x y ⟨right, low⟩, get_draw screen other left top ⟨right, low⟩,
      decide_eq_decide.mpr (same column right row low)]
  · rw [collided_draw, collided_draw]
    constructor
    · rintro ⟨column, right, row, low, covered, lit⟩
      exact ⟨column, right, row, low, (same column right row low).mp covered, lit⟩
    · rintro ⟨column, right, row, low, covered, lit⟩
      exact ⟨column, right, row, low, (same column right row low).mpr covered, lit⟩

theorem draw_nil (screen : Screen) (x y : UInt8) : screen.draw [] x y = (screen, false) := rfl

theorem draw_of_offScreen (screen : Screen) (sprite : List UInt8) {x y : UInt8}
    (offScreen : 64 ≤ x.toNat ∨ 32 ≤ y.toNat) : screen.draw sprite x y = (screen, false) := by
  rw [← draw_nil screen x y]
  refine draw_congr screen fun column right row low => ?_
  exact iff_of_false (not_covers_of_offScreen offScreen ⟨right, low⟩)
    (not_covers_of_offScreen offScreen ⟨right, low⟩)

/-- Every pixel on the screen becomes the exclusive or of what it was with the bit of the
sprite over it, and a collision is a pixel that was set under a set bit. So what is past an
edge makes no difference, no pixel beside the sprite changes, and a sprite with its corner off
the screen is not seen at all. The loops over rows and bits, which stop at the bottom edge and
pass over what is past the right one, come to the same. -/
theorem draw_law (screen : Screen) (sprite : List UInt8) (x y : UInt8) :
    let drawn := screen.draw sprite x y
    (∀ column < 64, ∀ row < 32, drawn.1.get column row =
      (screen.get column row ^^ decide (spriteCovers sprite x.toNat y.toNat column row))) ∧
    (drawn.2 = true ↔ ∃ column < 64, ∃ row < 32,
      spriteCovers sprite x.toNat y.toNat column row ∧ screen.get column row = true) ∧
    (∀ other left top, (∀ column < 64, ∀ row < 32,
        spriteCovers sprite x.toNat y.toNat column row ↔
          spriteCovers other left.toNat top.toNat column row) →
      screen.draw other left top = drawn) ∧
    (∀ column row, (column < x.toNat ∨ x.toNat + 8 ≤ column ∨ row < y.toNat ∨
        y.toNat + sprite.length ≤ row) →
      drawn.1.get column row = screen.get column row) ∧
    (64 ≤ x.toNat ∨ 32 ≤ y.toNat → drawn = (screen, false)) ∧
    CellMachine.drawRows x.toNat sprite y.toNat (inCells (screen, false)) =
      .ok (inCells drawn) := by
  intro drawn
  refine ⟨fun column right row low => get_draw screen sprite x y ⟨right, low⟩,
    collided_draw screen sprite x y, fun other left top same => (draw_congr screen same).symm,
    ?_, draw_of_offScreen screen sprite, ?_⟩
  · intro column row beside
    by_cases inside : column < 64 ∧ row < 32
    · have clear : ¬ spriteCovers sprite x.toNat y.toNat column row := by
        rintro ⟨left, right, lower, byte, here, -⟩
        have below := (List.getElem?_eq_some_iff.mp here).1
        omega
      rw [get_draw screen sprite x y inside, decide_eq_false clear, Bool.xor_false]
    · rw [get_of_outside _ inside, get_of_outside _ inside]
  · exact CellMachine.drawRows_inCells x.toNat sprite y.toNat (screen, false)

/-- Two rows over the bottom right corner, with one set pixel under the first of them: it is
unset, its left neighbour is set, and nothing comes back at the other edges. -/
theorem draw_law_corner :
    let screen := blank.toggle 61 31
    let drawn := screen.draw [0xc1, 0xff] 60 31
    drawn.1.get 60 31 = true ∧ drawn.1.get 61 31 = false ∧ drawn.2 = true ∧
      drawn.1.get 3 31 = false ∧ drawn.1.get 60 0 = false ∧
      screen.draw [0xc1] 60 31 = drawn ∧ screen.draw [0xff] 64 31 = (screen, false) := by
  intro screen drawn
  obtain ⟨pixels, collision, clipped, beside, -⟩ := draw_law screen [0xc1, 0xff] 60 31
  obtain ⟨-, -, -, -, offScreen, -⟩ := draw_law screen [0xff] 64 31
  have old : ∀ column row, screen.get column row =
      decide (column = 61 ∧ row = 31 ∧ 61 < 64 ∧ 31 < 32) := by
    intro column row
    rw [get_toggle, get_blank, Bool.false_xor]
  have sameOnScreen : ∀ column < 64, ∀ row < 32,
      spriteCovers [0xc1, 0xff] 60 31 column row ↔ spriteCovers [0xc1] 60 31 column row := by
    intro column right row low
    refine and_congr_right fun _ => and_congr_right fun _ => and_congr_right fun lower => ?_
    obtain rfl : row = 31 := by omega
    rfl
  refine ⟨(pixels 60 (by decide) 31 (by decide)).trans (by rw [old]; decide),
    (pixels 61 (by decide) 31 (by decide)).trans (by rw [old]; decide),
    collision.mpr ⟨61, by decide, 31, by decide, by decide, old 61 31⟩,
    (beside 3 31 (by decide)).trans (old 3 31), (beside 60 0 (by decide)).trans (old 60 0),
    clipped [0xc1] 60 31 sameOnScreen, offScreen (by decide)⟩

end ChipEight.Screen
