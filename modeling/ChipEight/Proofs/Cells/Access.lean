import ChipEight.Memory.Basic

/-!
# Checked access

Rows of cells whose positions are plain numbers, and arithmetic at a width. Nothing in
the types keeps an access in range: each one is checked, and one that cannot be made is
a trap. Sums of positions are unbounded here; one that passed its width would be the
position of no cell.
-/

set_option autoImplicit false

namespace ChipEight

/-- Why an access cannot be made. -/
inductive Trap where
  | position (index size : Nat)
  | block (start length size : Nat)
  | zeroDivisor
  | overflow
deriving DecidableEq, Repr

namespace Cells

variable {Cell : Type}

/-- The cell at a position. -/
def fetch (cells : Array Cell) (position : Nat) : Except Trap Cell :=
  match cells[position]? with
  | some value => .ok value
  | none => .error (.position position cells.size)

def store (cells : Array Cell) (position : Nat) (value : Cell) : Except Trap (Array Cell) :=
  if position < cells.size then .ok (cells.setIfInBounds position value)
  else .error (.position position cells.size)

/-- A block of consecutive cells. -/
def block (cells : Array Cell) (start length : Nat) : Except Trap (Array Cell) :=
  if start + length ≤ cells.size then .ok (cells.extract start (start + length))
  else .error (.block start length cells.size)

/-- Replaces a block of consecutive cells. -/
def overwrite (cells : Array Cell) (start : Nat) (values : List Cell) :
    Except Trap (Array Cell) :=
  if start + values.length ≤ cells.size then
    .ok (cells.extract 0 start ++ values.toArray ++ cells.extract (start + values.length))
  else .error (.block start values.length cells.size)

def remainder (value divisor : Nat) : Except Trap Nat :=
  if divisor = 0 then .error .zeroDivisor else .ok (value % divisor)

/-- A difference that must not fall below zero. -/
def less (value amount : Nat) : Except Trap Nat :=
  if amount ≤ value then .ok (value - amount) else .error .overflow

/-- A number that must fit into sixteen bits. -/
def wide (value : Nat) : Except Trap UInt16 :=
  if value < 65536 then .ok (UInt16.ofNat value) else .error .overflow

/-- One bit of sixteen; a shift by sixteen or more is none. -/
def bit (place : UInt8) : Except Trap UInt16 :=
  if place.toNat < 16 then .ok (1 <<< place.toUInt16) else .error .overflow

theorem ok_bind {Value Result : Type} (value : Value)
    (continuation : Value → Except Trap Result) :
    (Except.ok value >>= continuation) = continuation value := rfl

theorem bind_of_eq {Value Result : Type} {computation : Except Trap Value} {value : Value}
    {continuation : Value → Except Trap Result} (outcome : computation = .ok value) :
    (computation >>= continuation) = continuation value := by
  rw [outcome, ok_bind]

theorem fetch_eq (cells : Array Cell) (position : Nat) (inside : position < cells.size) :
    fetch cells position = .ok cells[position] := by
  simp [fetch, inside]

theorem store_eq (cells : Array Cell) (position : Nat) (value : Cell)
    (inside : position < cells.size) :
    store cells position value = .ok (cells.setIfInBounds position value) := by
  simp [store, inside]

theorem less_eq (value amount : Nat) (enough : amount ≤ value) :
    less value amount = .ok (value - amount) := by
  simp [less, enough]

theorem remainder_eq (value divisor : Nat) (positive : 0 < divisor) :
    remainder value divisor = .ok (value % divisor) := by
  simp [remainder, Nat.ne_of_gt positive]

theorem wide_eq (value : Nat) (fits : value < 65536) :
    wide value = .ok (UInt16.ofNat value) := by
  simp [wide, fits]

theorem bit_eq (place : UInt8) (small : place ≤ 0xf) :
    bit place = .ok (1 <<< place.toUInt16) := by
  have fits : place.toNat < 16 := by
    have bound : place.toNat ≤ 15 := UInt8.le_iff_toNat_le.mp small
    omega
  simp [bit, fits]

theorem block_one (cells : Array Cell) (start : Nat) (inside : start < cells.size) :
    block cells start 1 = .ok #[cells[start]] := by
  have single : cells.extract start (start + 1) = #[cells[start]] := by
    apply Array.ext
    · simp; omega
    · intro position _ second
      have first : position = 0 := by simpa using second
      subst first
      simp
  rw [block, if_pos (by omega), single]

theorem overwrite_one (cells : Array Cell) (start : Nat) (value : Cell)
    (inside : start < cells.size) :
    overwrite cells start [value] = .ok (cells.setIfInBounds start value) := by
  have replaced : cells.extract 0 start ++ [value].toArray ++ cells.extract (start + 1) =
      cells.setIfInBounds start value := by
    apply Array.toList_inj.mp
    rw [Array.toList_setIfInBounds, List.set_eq_take_append_cons_drop, if_pos (by simpa)]
    have whole : (cells.toList.drop (start + 1)).take (cells.size - (start + 1)) =
        cells.toList.drop (start + 1) := List.take_of_length_le (by simp)
    simp only [Array.append_singleton, Array.toList_append, Array.toList_push,
      Array.toList_extract, List.extract_eq_take_drop, Nat.sub_zero, List.drop_zero,
      List.append_assoc, List.cons_append, List.nil_append]
    rw [whole]
  rw [overwrite, if_pos (by simp; omega)]
  simp only [List.length_cons, List.length_nil]
  rw [replaced]

/-- What a block replaces is what placing its bytes one after the other replaces. -/
theorem overwrite_toArray {size : Nat} (memory : Memory size) (start : Nat)
    (values : List UInt8) (fits : start + values.length ≤ size) :
    overwrite memory.cells.toArray start values =
      .ok (memory.place start values).cells.toArray := by
  rw [overwrite, if_pos (by simpa using fits)]
  congr 1
  apply Array.ext
  · simp; omega
  · intro position first second
    have inside : position < size := by simpa using second
    have placed := Memory.getElem_cells_place memory start values position inside
    rw [Vector.getElem_toArray, placed]
    simp only [Array.getElem_append, Array.getElem_extract, Array.size_extract,
      Array.size_append, List.size_toArray, List.getElem_toArray, Vector.getElem_toArray,
      Vector.size_toArray]
    have room : min start size - 0 = start := by omega
    rcases Nat.lt_or_ge position start with before | from_start
    · rw [dif_pos (by omega), dif_pos (by omega), if_neg (by omega)]
      simp
    · rw [if_pos from_start]
      by_cases covered : position < start + values.length
      · rw [dif_pos (by omega), dif_neg (by omega)]
        simp only [room]
        simp [show position - start < values.length by omega]
      · rw [dif_neg (by omega)]
        have past : values.length ≤ position - start := by omega
        have same : start + values.length + (position - (min start size - 0 + values.length)) =
          position := by omega
        simp only [same]
        simp [past]

end Cells

end ChipEight
