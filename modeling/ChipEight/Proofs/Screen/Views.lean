import ChipEight.Proofs.Cells.Views
import ChipEight.Terminal.Display

/-!
# One picture in all views

Packed bytes, lines of text, lists of positions and counts are taken from a screen in different
orders, and all of them show the same picture. So does a terminal, which paints the pixels of
either state at their positions on the canvas.
-/

set_option autoImplicit false

namespace ChipEight.Screen

variable (screen : Screen)

/-! ## Positions -/

theorem mem_positionsIn {state : Bool} {x y : Nat} :
    (x, y) ∈ screen.positionsIn state ↔ (x < 64 ∧ y < 32) ∧ screen.get x y = state := by
  rw [positionsIn, List.mem_filter, mem_positions, beq_iff_eq]

/-- Every pixel is in one of the two states. -/
theorem positionsIn_perm :
    (screen.positionsIn true ++ screen.positionsIn false).Perm positions := by
  have unset : screen.positionsIn false =
      positions.filter fun position => !(screen.get position.1 position.2 == true) := by
    apply List.filter_congr
    rintro ⟨x, y⟩ -
    dsimp only
    cases screen.get x y with
    | false => rfl
    | true => rfl
  rw [unset]
  exact List.filter_append_perm _ positions

theorem onCanvas_injective : Function.Injective onCanvas := by
  rintro ⟨x, y⟩ ⟨column, row⟩ same
  obtain ⟨sameColumn, sameRow⟩ := Prod.mk.inj same
  exact Prod.ext (Int.ofNat_inj.mp sameColumn) (Int.ofNat_inj.mp (Int.neg_inj.mp sameRow))

theorem mem_canvasPositions {state : Bool} {position : Nat × Nat} :
    onCanvas position ∈ screen.canvasPositions state ↔ position ∈ screen.positionsIn state :=
  List.mem_map_of_injective onCanvas_injective

theorem nodup_canvasPositions :
    (screen.canvasPositions true ++ screen.canvasPositions false).Nodup := by
  have whole := screen.positionsIn_perm.nodup_iff.mpr nodup_positions
  rw [canvasPositions, canvasPositions, ← List.map_append]
  exact whole.map onCanvas_injective

theorem litCount_eq_length : screen.litCount = (screen.positionsIn true).length := by
  rw [litCount_eq, positionsIn, ← List.countP_eq_length_filter]
  apply List.countP_congr
  rintro ⟨x, y⟩ -
  dsimp only
  rw [beq_true]

/-! ## The views together -/

/-- What each view of a screen shows of one pixel. -/
structure ShowsAlike (x y : Nat) : Prop where
  packed : ∃ byte, screen.packed[8 * y + x / 8]? = some byte ∧
    byte.toNat.testBit (7 - x % 8) = screen.get x y
  text : ∃ line, screen.lines[y]? = some line ∧
    line.toList[x]? = some (if screen.get x y then '#' else '.')
  listed : ∀ state, (x, y) ∈ screen.positionsIn state ↔ screen.get x y = state
  onCanvas : ∀ state,
    ((x : Int), -(y : Int)) ∈ screen.canvasPositions state ↔ screen.get x y = state

theorem showsAlike {x y : Nat} (inside : x < 64 ∧ y < 32) : screen.ShowsAlike x y where
  packed := by
    have within : 8 * y + x / 8 < screen.packed.length := by
      rw [length_packed]
      omega
    have byte : (y * 64 + x) / 8 = 8 * y + x / 8 := by omega
    have place : (y * 64 + x) % 8 = x % 8 := by omega
    have bit := packedBit_packed screen inside
    rw [packedBit, byte, place, List.getD_eq_getElem?_getD, List.getElem?_eq_getElem within] at bit
    exact ⟨_, List.getElem?_eq_getElem within, bit⟩
  text := by
    refine ⟨screen.line y, ?_, ?_⟩
    · rw [lines, List.getElem?_map, List.getElem?_range inside.2, Option.map_some]
    · rw [line, String.toList_ofList, List.getElem?_map, List.getElem?_range inside.1,
        Option.map_some]
  listed state := (mem_positionsIn screen).trans (and_iff_right inside)
  onCanvas state :=
    (mem_canvasPositions screen).trans ((mem_positionsIn screen).trans (and_iff_right inside))

/-- All views of a screen show the same pixels, each of them once, and off the screen there are
none. The set ones are as many as the bits that are set in the packed form, and that form has the
whole picture in it. A pass over the row of cells gives the lists, the bytes and the text that are
given pixel by pixel. -/
theorem views_agree :
    (∀ x < 64, ∀ y < 32, screen.ShowsAlike x y) ∧
    (∀ x y, ¬ (x < 64 ∧ y < 32) → screen.get x y = false) ∧
    ((screen.positionsIn true ++ screen.positionsIn false).Nodup ∧
      (screen.positionsIn true ++ screen.positionsIn false).length = 2048 ∧
      ∀ x y, (x, y) ∈ screen.positionsIn true ++ screen.positionsIn false ↔ x < 64 ∧ y < 32) ∧
    (screen.canvasPositions true ++ screen.canvasPositions false).Nodup ∧
    screen.litCount = (screen.positionsIn true).length ∧
    screen.litCount = oneBits screen.packed ∧
    ofPacked screen.packed = screen ∧
    (∀ other : Screen, other.packed = screen.packed → other = screen) ∧
    (∀ state, Cells.positionsIn screen.pixels.toArray state = screen.positionsIn state) ∧
    Cells.pack screen.pixels.toArray = .ok screen.packed.toArray ∧
    (Cells.text screen.pixels.toArray).toList =
      screen.lines.flatMap fun line => line.toList ++ ['\n'] := by
  have whole := screen.positionsIn_perm
  refine ⟨fun x right y low => screen.showsAlike ⟨right, low⟩,
    fun x y outside => get_of_outside screen outside, ⟨?_, ?_, fun x y => ?_⟩,
    screen.nodup_canvasPositions, screen.litCount_eq_length, screen.litCount_eq_oneBits,
    screen.ofPacked_packed, fun other same => packed_injective same, screen.positionsIn_pixels,
    screen.pack_pixels, screen.text_pixels⟩
  · exact whole.nodup_iff.mpr nodup_positions
  · rw [whole.length_eq, positions_eq, List.length_map, List.length_range]
  · rw [whole.mem_iff, mem_positions]

/-- A single pixel in the bottom right corner. -/
theorem views_agree_corner :
    let screen := blank.toggle 63 31
    (∃ byte, screen.packed[255]? = some byte ∧ byte.toNat.testBit 0 = true) ∧
      (∃ line, screen.lines[31]? = some line ∧ line.toList[63]? = some '#') ∧
      (63, 31) ∈ screen.positionsIn true ∧ (63, 31) ∉ screen.positionsIn false ∧
      (63, -31) ∈ screen.canvasPositions true ∧ screen.get 64 31 = false ∧
      ofPacked screen.packed = screen := by
  intro screen
  obtain ⟨alike, offScreen, -, -, -, -, unpacked, -⟩ := views_agree screen
  have lit : screen.get 63 31 = true := by
    rw [get_toggle, get_blank]
    decide
  obtain ⟨packed, text, listed, onCanvas⟩ := alike 63 (by decide) 31 (by decide)
  rw [lit] at packed text listed onCanvas
  refine ⟨packed, text, (listed true).mpr rfl, fun among => ?_, (onCanvas true).mpr rfl,
    offScreen 64 31 (by decide), unpacked⟩
  cases (listed false).mp among

/-! ## On a terminal -/

/-- Puts the pixel at a canvas position into its cell within the frame. -/
def strokeOnCanvas (lit : Bool) (point : Int × Int) : Stroke :=
  .pixel lit (point.1 + 1).toNat (1 - point.2).toNat

theorem map_canvasPositions (state : Bool) :
    (screen.canvasPositions state).map (strokeOnCanvas state) =
      (screen.positionsIn state).map fun (x, y) =>
        Stroke.pixel (screen.get x y) (x + 1) (y + 1) := by
  rw [canvasPositions, List.map_map]
  apply List.map_congr_left
  rintro ⟨x, y⟩ among
  have column : ((x : Int) + 1).toNat = x + 1 := Int.toNat_natCast_add_one
  have row : (1 - -(y : Int)).toNat = y + 1 := by omega
  simp only [Function.comp_apply, onCanvas, strokeOnCanvas, column, row,
    (screen.mem_positionsIn.mp among).2]

/-- A terminal shows the unset and the set pixels of a canvas, each of them in its own cell. -/
theorem pixels_perm_canvas :
    ((screen.canvasPositions false).map (strokeOnCanvas false) ++
      (screen.canvasPositions true).map (strokeOnCanvas true)).Perm (Stroke.pixels screen) := by
  rw [map_canvasPositions, map_canvasPositions, ← List.map_append]
  exact (List.perm_append_comm.trans screen.positionsIn_perm).map _

end ChipEight.Screen
