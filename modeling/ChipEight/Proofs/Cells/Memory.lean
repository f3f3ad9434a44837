import ChipEight.Proofs.Cells.Access

/-!
# Memory in cells

Memory once more as a row of cells, of any length. A single access takes its address modulo that
length and a block is claimed as a whole before its first byte is stored, so what an access stores
before it traps would stay. A memory without cells has no address to name.
-/

set_option autoImplicit false

namespace ChipEight

namespace Cells

/-- The cell that an address names, as an address. -/
def wrap (bytes : Array UInt8) (address : UInt16) : Except Trap UInt16 := do
  return UInt16.ofNat (← remainder address.toNat bytes.size)

def readByte (bytes : Array UInt8) (address : UInt16) : Except Trap UInt8 := do
  fetch (← block bytes (← wrap bytes address).toNat 1) 0

def readWord (bytes : Array UInt8) (address : UInt16) : Except Trap UInt16 := do
  let high ← readByte bytes address
  let low ← readByte bytes (address + 1)
  return high.toUInt16 * 256 + low.toUInt16

def readBlock (bytes : Array UInt8) (start : UInt16) (length : Nat) :
    Except Trap (List UInt8) := do
  return (← block bytes start.toNat length).toList

/-- Stores bytes in consecutive cells one after the other, up to the first that traps. -/
def copy (bytes : Array UInt8) (position : Nat) : List UInt8 → Option Trap × Array UInt8
  | [] => (none, bytes)
  | value :: later =>
    match store bytes position value with
    | .ok stored => copy stored (position + 1) later
    | .error trap => (some trap, bytes)

/-- Claims a block of cells and then stores bytes in it. -/
def replace (bytes : Array UInt8) (position : Nat) (values : List UInt8) :
    Option Trap × Array UInt8 :=
  match block bytes position values.length with
  | .ok _ => copy bytes position values
  | .error trap => (some trap, bytes)

def writeByte (bytes : Array UInt8) (address : UInt16) (value : UInt8) :
    Option Trap × Array UInt8 :=
  match wrap bytes address with
  | .ok cell => replace bytes cell.toNat [value]
  | .error trap => (some trap, bytes)

def writeBlock (bytes : Array UInt8) (start : UInt16) (values : List UInt8) :
    Option Trap × Array UInt8 :=
  replace bytes start.toNat values

end Cells

namespace Memory

open Cells

variable {size : Nat} (memory : Memory size)

/-! ## Single accesses -/

/-- A remainder of an address is an address, whatever it is divided by. -/
theorem toNat_ofNat_cellOf (address : UInt16) :
    (UInt16.ofNat (cellOf size address)).toNat = cellOf size address :=
  UInt16.toNat_ofNat_of_lt' (Nat.lt_of_le_of_lt (Nat.mod_le _ _) address.toNat_lt)

theorem wrap_cells (positive : 0 < size) (address : UInt16) :
    wrap memory.cells.toArray address = .ok (UInt16.ofNat (cellOf size address)) := by
  rw [wrap, Vector.size_toArray, remainder_eq _ _ positive]
  rfl

theorem wrap_cells_of_empty (empty : size = 0) (address : UInt16) :
    wrap memory.cells.toArray address = .error .zeroDivisor := by
  rw [wrap, remainder, if_pos (memory.cells.size_toArray.trans empty)]
  rfl

theorem readByte_cells_of_empty (empty : size = 0) (address : UInt16) :
    readByte memory.cells.toArray address = .error .zeroDivisor := by
  rw [readByte, wrap_cells_of_empty memory empty]
  rfl

theorem readByte_cells (positive : 0 < size) (address : UInt16) :
    readByte memory.cells.toArray address = .ok (memory.read address) := by
  have inside : cellOf size address < memory.cells.toArray.size := by
    rw [Vector.size_toArray]
    exact cellOf_lt positive address
  rw [readByte, wrap_cells memory positive, ok_bind, toNat_ofNat_cellOf, block_one _ _ inside,
    ok_bind, fetch_eq _ _ Nat.one_pos, read_eq memory positive]
  rfl

theorem readWord_cells (positive : 0 < size) (address : UInt16) :
    readWord memory.cells.toArray address = .ok (memory.word address) := by
  rw [readWord, readByte_cells memory positive, ok_bind, readByte_cells memory positive, ok_bind]
  rfl

/-! ## Blocks -/

theorem readBlock_cells (start : UInt16) (length : Nat) :
    (readBlock memory.cells.toArray start length).toOption = memory.readBlock? start length := by
  rw [readBlock, block, Vector.size_toArray]
  rcases Nat.lt_or_ge size (start.toNat + length) with passes | fits
  · rw [if_neg (Nat.not_le.mpr passes), readBlock?_of_passes memory passes]
    rfl
  · rw [if_pos fits, readBlock?_of_fits memory fits]
    rfl

/-- In cells that are there, no copy stops half way. -/
theorem copy_cells {position : Nat} {values : List UInt8} (fits : position + values.length ≤ size) :
    copy memory.cells.toArray position values =
      (none, (memory.place position values).cells.toArray) := by
  induction values generalizing memory position with
  | nil => rfl
  | cons value later ih =>
      rw [List.length_cons] at fits
      have inside : position < memory.cells.toArray.size := by
        rw [Vector.size_toArray]
        omega
      have room : position + 1 + later.length ≤ size := by omega
      have rest := ih ⟨memory.cells.setIfInBounds position value⟩ room
      rw [copy, store_eq _ _ _ inside, place, ← rest, Vector.toArray_setIfInBounds]

theorem replace_cells {position : Nat} {values : List UInt8}
    (fits : position + values.length ≤ size) :
    replace memory.cells.toArray position values =
      (none, (memory.place position values).cells.toArray) := by
  rw [replace, block, Vector.size_toArray, if_pos fits]
  exact copy_cells memory fits

theorem replace_cells_of_outside {position : Nat} {values : List UInt8}
    (passes : size < position + values.length) :
    replace memory.cells.toArray position values =
      (some (.block position values.length size), memory.cells.toArray) := by
  rw [replace, block, Vector.size_toArray, if_neg (Nat.not_le.mpr passes)]

theorem writeByte_cells (positive : 0 < size) (address : UInt16) (value : UInt8) :
    writeByte memory.cells.toArray address value =
      (none, (memory.write address value).cells.toArray) := by
  have inside : cellOf size address + [value].length ≤ size := cellOf_lt positive address
  rw [writeByte, wrap_cells memory positive]
  dsimp only
  rw [toNat_ofNat_cellOf, replace_cells memory inside]
  rfl

theorem writeByte_cells_of_empty (empty : size = 0) (address : UInt16) (value : UInt8) :
    writeByte memory.cells.toArray address value = (some .zeroDivisor, memory.cells.toArray) := by
  rw [writeByte, wrap_cells_of_empty memory empty]

end Memory

end ChipEight
