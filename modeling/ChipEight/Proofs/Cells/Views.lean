import ChipEight.Proofs.Cells.Access
import ChipEight.Proofs.Screen.Packing

/-!
# Views in cells

The views of a screen once more, each taken in one pass over the row of its cells: the numbers of
the cells in one state, bytes that get one bit after another, and text that is cut off row by row.
They come to the views that are taken pixel by pixel.
-/

set_option autoImplicit false

namespace ChipEight

namespace Cells

/-- The cells in the given state by their numbers. -/
def numbersIn (pixels : Array Bool) (state : Bool) : List Nat :=
  (pixels.toList.zipIdx.filter fun (pixel, _) => pixel == state).map fun (_, number) => number

def positionsIn (pixels : Array Bool) (state : Bool) : List (Nat × Nat) :=
  (numbersIn pixels state).map fun number => (number % 64, number / 64)

/-- Sets the bit of a cell in the byte that it shares with seven others. -/
def setBit (bytes : Array UInt8) (number : Nat) : Except Trap (Array UInt8) := do
  let byte ← fetch bytes (number / 8)
  store bytes (number / 8) (byte ||| 0x80 >>> UInt8.ofNat (number % 8))

def pack (pixels : Array Bool) : Except Trap (Array UInt8) :=
  (numbersIn pixels true).foldlM setBit (Array.replicate 256 0)

/-- Cuts a row of cells into rows of one width; the last one may be shorter. -/
def rowsOf (width : Nat) : List Bool → List (List Bool)
  | [] => []
  | pixel :: later => (pixel :: later.take (width - 1)) :: rowsOf width (later.drop (width - 1))
termination_by pixels => pixels.length
decreasing_by simp only [List.length_drop, List.length_cons]; omega

def rowText (row : List Bool) : List Char :=
  row.map fun pixel => if pixel then '#' else '.'

/-- Every row of the text ends a line. -/
def text (pixels : Array Bool) : String :=
  String.ofList ((rowsOf 64 pixels.toList).flatMap fun row => rowText row ++ ['\n'])

/-! ## Packing -/

theorem testBit_single {bit place : Nat} (inBit : bit < 8) (inPlace : place < 8) :
    ((0x80 : UInt8) >>> UInt8.ofNat bit).toNat.testBit (7 - place) = decide (place = bit) := by
  have all : ∀ bit < 8, ∀ place < 8, ((0x80 : UInt8) >>> UInt8.ofNat bit).toNat.testBit
      (7 - place) = decide (place = bit) := by decide
  exact all bit inBit place inPlace

theorem setBit_eq {bytes : Array UInt8} {number : Nat} (inside : number / 8 < bytes.size) :
    ∃ after, setBit bytes number = .ok after ∧ after.size = bytes.size ∧
      ∀ other, Screen.packedBit after.toList other =
        (Screen.packedBit bytes.toList other || decide (other = number)) := by
  refine ⟨_, (bind_of_eq (fetch_eq bytes _ inside)).trans (store_eq bytes _ _ inside),
    Array.size_setIfInBounds, fun other => ?_⟩
  simp only [Screen.packedBit, Array.toList_setIfInBounds, List.getD_eq_getElem?_getD,
    List.getElem?_set]
  -- A bit in another byte is left alone; in the same byte it is one of eight.
  by_cases shared : number / 8 = other / 8
  · have bit : decide (other = number) = decide (other % 8 = number % 8) :=
      decide_eq_decide.mpr (by omega)
    have old : bytes.toList[other / 8]? = some bytes[number / 8] := by
      rw [← shared, Array.getElem?_toList, Array.getElem?_eq_getElem inside]
    rw [if_pos shared, if_pos (by simpa using inside), old, Option.getD_some, Option.getD_some,
      UInt8.toNat_or, Nat.testBit_or,
      testBit_single (Nat.mod_lt _ (by decide)) (Nat.mod_lt _ (by decide)), bit]
  · have apart : ¬ other = number := fun same => shared (by rw [same])
    rw [if_neg shared, decide_eq_false apart, Bool.or_false]

theorem foldlM_setBit {numbers : List Nat} {bytes : Array UInt8}
    (inside : ∀ number ∈ numbers, number / 8 < bytes.size) :
    ∃ after, numbers.foldlM setBit bytes = .ok after ∧ after.size = bytes.size ∧
      ∀ other, Screen.packedBit after.toList other =
        (Screen.packedBit bytes.toList other || decide (other ∈ numbers)) := by
  induction numbers generalizing bytes with
  | nil => exact ⟨bytes, rfl, rfl, fun other => by simp⟩
  | cons number later ih =>
      obtain ⟨middle, set, size, marked⟩ := setBit_eq (inside number List.mem_cons_self)
      have insideLater : ∀ other ∈ later, other / 8 < middle.size := fun other among =>
        size.symm ▸ inside other (List.mem_cons_of_mem number among)
      obtain ⟨after, rest, sizeAfter, all⟩ := ih insideLater
      refine ⟨after, ?_, sizeAfter.trans size, fun other => ?_⟩
      · rw [List.foldlM_cons]
        exact (bind_of_eq set).trans rest
      · rw [all, marked, Bool.or_assoc, ← Bool.decide_or]
        simp only [List.mem_cons]

/-! ## Text -/

theorem rowsOf_append {width : Nat} (positive : 0 < width) {row : List Bool}
    (full : row.length = width) (later : List Bool) :
    rowsOf width (row ++ later) = row :: rowsOf width later := by
  cases row with
  | nil => exact absurd full (Nat.ne_of_lt positive)
  | cons pixel rest =>
      have length : rest.length = width - 1 := by rw [← full]; rfl
      rw [List.cons_append, rowsOf, List.take_left' length, List.drop_left' length]

theorem rowsOf_flatten {width : Nat} (positive : 0 < width) {rows : List (List Bool)}
    (full : ∀ row ∈ rows, row.length = width) : rowsOf width rows.flatten = rows := by
  induction rows with
  | nil => rw [List.flatten_nil, rowsOf]
  | cons row later ih =>
      rw [List.flatten_cons, rowsOf_append positive (full row List.mem_cons_self),
        ih fun other among => full other (List.mem_cons_of_mem row among)]

end Cells

namespace Screen

open Cells

variable (screen : Screen)

theorem toList_pixels_eq :
    screen.pixels.toList = (List.range 2048).map fun number =>
      screen.get (number % 64) (number / 64) := by
  rw [toList_pixels, positions_eq, List.map_map]
  rfl

theorem numbersIn_pixels (state : Bool) :
    numbersIn screen.pixels.toArray state = (List.range 2048).filter fun number =>
      screen.get (number % 64) (number / 64) == state := by
  have numbered : screen.pixels.toList.zipIdx = (List.range 2048).map fun number =>
      (screen.get (number % 64) (number / 64), number) := by
    rw [toList_pixels_eq]
    apply List.ext_getElem
    · simp
    · intro number _ _
      simp
  rw [numbersIn, Vector.toList_toArray, numbered, List.filter_map, List.map_map]
  exact List.map_id _

theorem mem_numbersIn_pixels {state : Bool} {number : Nat} :
    number ∈ numbersIn screen.pixels.toArray state ↔
      number < 2048 ∧ screen.get (number % 64) (number / 64) = state := by
  rw [numbersIn_pixels, List.mem_filter, List.mem_range, beq_iff_eq]

theorem positionsIn_pixels (state : Bool) :
    Cells.positionsIn screen.pixels.toArray state = screen.positionsIn state := by
  rw [Cells.positionsIn, numbersIn_pixels, Screen.positionsIn, positions_eq, List.filter_map]
  rfl

theorem pack_pixels : pack screen.pixels.toArray = .ok screen.packed.toArray := by
  have inside : ∀ number ∈ numbersIn screen.pixels.toArray true,
      number / 8 < (Array.replicate 256 (0 : UInt8)).size := by
    intro number among
    have small := (screen.mem_numbersIn_pixels.mp among).1
    rw [Array.size_replicate]
    omega
  obtain ⟨after, packed, size, marked⟩ := foldlM_setBit inside
  have length : after.toList.length = 256 := by
    rw [Array.length_toList, size, Array.size_replicate]
  have same : after.toList = screen.packed := by
    apply eq_of_packedBit_eq (length.trans (length_packed screen).symm)
    rw [length]
    intro number within
    have listed : decide (number ∈ numbersIn screen.pixels.toArray true) =
        screen.get (number % 64) (number / 64) := by
      rw [Bool.eq_iff_iff, decide_eq_true_iff, mem_numbersIn_pixels]
      exact and_iff_right within
    rw [marked, Array.toList_replicate, packedBit_replicate_zero, Bool.false_or, listed,
      packedBit_packed_of_lt screen within]
  rw [pack, packed, ← same, Array.toArray_toList]

theorem rowsOf_pixels :
    rowsOf 64 screen.pixels.toList = (List.range 32).map fun y =>
      (List.range 64).map fun x => screen.get x y := by
  have rows : screen.pixels.toList = ((List.range 32).map fun y =>
      (List.range 64).map fun x => screen.get x y).flatten := by
    rw [toList_pixels, positions, List.map_flatMap, List.flatMap_def]
    simp only [List.map_map, Function.comp_def]
  rw [rows]
  apply rowsOf_flatten (by decide)
  intro row among
  obtain ⟨y, -, rfl⟩ := List.mem_map.mp among
  rw [List.length_map, List.length_range]

theorem text_pixels :
    (text screen.pixels.toArray).toList =
      screen.lines.flatMap fun line => line.toList ++ ['\n'] := by
  rw [text, String.toList_ofList, Vector.toList_toArray, rowsOf_pixels, lines, List.flatMap_map,
    List.flatMap_map]
  simp only [rowText, line, String.toList_ofList, List.map_map, Function.comp_def]

end Screen

end ChipEight
