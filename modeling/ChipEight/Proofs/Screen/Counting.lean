import ChipEight.Proofs.Screen.Drawing
import ChipEight.Screen.Export

/-!
# Counting pixels

Every position of the screen is listed once, so set pixels are counted position by position. A
drawing adds a pixel for each set bit over an unset pixel, and takes one away for each over a set
pixel.
-/

set_option autoImplicit false

namespace ChipEight.Screen

/-! ## The positions of the screen -/

/-- What is listed row by row, each row from its left end, in one count. -/
theorem flatMap_range_rows {α : Type} (cell : Nat → Nat → α) {width : Nat} (positive : 0 < width)
    (rows : Nat) :
    ((List.range rows).flatMap fun y => (List.range width).map (cell y)) =
      (List.range (rows * width)).map fun position =>
        cell (position / width) (position % width) := by
  induction rows with
  | zero => rw [Nat.zero_mul]; rfl
  | succ rows ih =>
      have last : List.range (rows + 1) = List.range rows ++ [rows] := List.range_succ
      rw [last, List.flatMap_append, ih, Nat.succ_mul, List.range_add, List.map_append,
        List.map_map, List.flatMap_singleton]
      congr 1
      apply List.map_congr_left
      intro column among
      have right : column < width := List.mem_range.mp among
      have remainder : (rows * width + column) % width = column :=
        Nat.mul_add_mod_of_lt right
      have quotient : (rows * width + column) / width = rows := by
        rw [Nat.mul_comm, Nat.mul_add_div positive, Nat.div_eq_of_lt right, Nat.add_zero]
      simp only [Function.comp_apply, remainder, quotient]

theorem positions_eq :
    positions = (List.range 2048).map fun position => (position % 64, position / 64) :=
  flatMap_range_rows (fun y x => (x, y)) (by decide) 32

theorem mem_positions {column row : Nat} :
    (column, row) ∈ positions ↔ column < 64 ∧ row < 32 := by
  simp only [positions, List.mem_flatMap, List.mem_map, List.mem_range, Prod.mk.injEq]
  constructor
  · rintro ⟨y, low, x, right, rfl, rfl⟩
    exact ⟨right, low⟩
  · rintro ⟨right, low⟩
    exact ⟨row, low, column, right, rfl, rfl⟩

theorem nodup_positions : positions.Nodup := by
  rw [positions_eq]
  refine List.Nodup.map_on ?_ List.nodup_range
  intro first _ second _ same
  obtain ⟨remainder, quotient⟩ := Prod.mk.inj same
  omega

theorem toList_pixels (screen : Screen) :
    screen.pixels.toList = positions.map fun (x, y) => screen.get x y := by
  rw [positions_eq, List.map_map]
  apply List.ext_getElem
  · simp
  · intro position below _
    have small : position < 2048 := by simpa using below
    have inside : position % 64 < 64 ∧ position / 64 < 32 := by omega
    have whole : position / 64 * 64 + position % 64 = position := Nat.div_add_mod' position 64
    simp only [List.getElem_map, List.getElem_range, Function.comp_apply, get, dif_pos inside,
      whole, Vector.getElem_toList]

theorem litCount_eq (screen : Screen) :
    screen.litCount = positions.countP fun (x, y) => screen.get x y := by
  rw [litCount, toList_pixels, List.count, List.countP_map]
  apply List.countP_congr
  rintro ⟨x, y⟩ -
  rw [Function.comp_apply, beq_true]

/-! ## Set bits -/

/-- How many set bits of a sprite are on the screen, with its top left corner at (x, y). -/
def bitsOnScreen : (sprite : List UInt8) → (x y : Nat) → Nat
  | [], _, _ => 0
  | byte :: below, x, y =>
    ((List.range 8).countP fun bit =>
      byte.toNat.testBit (7 - bit) && decide (x + bit < 64 ∧ y < 32)) + bitsOnScreen below x (y + 1)

/-- How many set pixels of a screen are under a set bit of a sprite. -/
def overlap (screen : Screen) (sprite : List UInt8) (x y : Nat) : Nat :=
  positions.countP fun (column, row) =>
    decide (spriteCovers sprite x y column row) && screen.get column row

theorem countP_rowPixels (byte : UInt8) (x y : Nat) :
    (rowPixels byte x y).countP (fun (column, row) => decide (column < 64 ∧ row < 32)) =
      (List.range 8).countP fun bit =>
        byte.toNat.testBit (7 - bit) && decide (x + bit < 64 ∧ y < 32) := by
  rw [rowPixels, List.countP_filterMap]
  apply List.countP_congr
  intro bit _
  cases byte.toNat.testBit (7 - bit) with
  | false => rfl
  | true => rfl

theorem countP_spritePixels (sprite : List UInt8) (x y : Nat) :
    (spritePixels sprite x y).countP (fun (column, row) => decide (column < 64 ∧ row < 32)) =
      bitsOnScreen sprite x y := by
  induction sprite generalizing y with
  | nil => rfl
  | cons byte below ih =>
      rw [spritePixels, List.countP_append, countP_rowPixels, ih, bitsOnScreen]

/-- Every pixel has one bit of a sprite over it at most, so the covered pixels are as many as the
bits that cover them. -/
theorem countP_covers (sprite : List UInt8) (x y : Nat) :
    (positions.countP fun (column, row) => decide (spriteCovers sprite x y column row)) =
      bitsOnScreen sprite x y := by
  rw [← countP_spritePixels, List.countP_eq_length_filter, List.countP_eq_length_filter]
  apply List.Perm.length_eq
  rw [List.perm_ext_iff_of_nodup (nodup_positions.filter _)
    ((nodup_spritePixels sprite x y).filter _)]
  rintro ⟨column, row⟩
  simp only [List.mem_filter, mem_positions, mem_spritePixels, decide_eq_true_eq]
  exact and_comm

/-! ## Drawing -/

/-- An exclusive or holds where one side does and the other does not. -/
theorem countP_xor {α : Type} (first second : α → Bool) (items : List α) :
    (items.countP fun item => first item ^^ second item) +
        2 * (items.countP fun item => second item && first item) =
      items.countP first + items.countP second := by
  induction items with
  | nil => rfl
  | cons item later ih =>
      simp only [List.countP_cons]
      cases first item with
      | false => cases second item <;> simp <;> omega
      | true => cases second item <;> simp <;> omega

theorem litCount_draw (screen : Screen) (sprite : List UInt8) (x y : UInt8) :
    (screen.draw sprite x y).1.litCount + 2 * screen.overlap sprite x.toNat y.toNat =
      screen.litCount + bitsOnScreen sprite x.toNat y.toNat := by
  have drawn : (screen.draw sprite x y).1.litCount = positions.countP fun (column, row) =>
      screen.get column row ^^ decide (spriteCovers sprite x.toNat y.toNat column row) := by
    rw [litCount_eq]
    apply List.countP_congr
    rintro ⟨column, row⟩ among
    dsimp only
    rw [get_draw screen sprite x y (mem_positions.mp among)]
  rw [drawn, litCount_eq, ← countP_covers]
  exact countP_xor (fun (column, row) => screen.get column row) _ positions

theorem collided_draw_iff_overlap (screen : Screen) (sprite : List UInt8) (x y : UInt8) :
    (screen.draw sprite x y).2 = true ↔ screen.overlap sprite x.toNat y.toNat ≠ 0 := by
  rw [collided_draw, overlap, ← Nat.pos_iff_ne_zero, List.countP_pos_iff]
  constructor
  · rintro ⟨column, right, row, low, covered, lit⟩
    refine ⟨(column, row), mem_positions.mpr ⟨right, low⟩, ?_⟩
    rw [Bool.and_eq_true, decide_eq_true_eq]
    exact ⟨covered, lit⟩
  · rintro ⟨⟨column, row⟩, among, both⟩
    obtain ⟨right, low⟩ := mem_positions.mp among
    rw [Bool.and_eq_true, decide_eq_true_eq] at both
    exact ⟨column, right, row, low, both.1, both.2⟩

end ChipEight.Screen
