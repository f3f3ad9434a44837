/-!
# Memory

A row of byte cells. Single accesses take an address modulo the number of cells,
so they always hit a cell unless there is none; block accesses do not wrap and
are refused when they would pass the last cell.
-/

set_option autoImplicit false

namespace ChipEight

structure Memory (size : Nat) where
  cells : Vector UInt8 size
deriving DecidableEq

namespace Memory

variable {size : Nat}

/-- The cell that an address names: addresses wrap at the end of memory. -/
def cellOf (size : Nat) (address : UInt16) : Nat := address.toNat % size

theorem cellOf_lt (positive : 0 < size) (address : UInt16) : cellOf size address < size :=
  Nat.mod_lt _ positive

def zeroed (size : Nat) : Memory size := ⟨Vector.replicate size 0⟩

/-- The byte at an address. A memory without cells reads as zero; `read?` refuses it. -/
def read (memory : Memory size) (address : UInt16) : UInt8 :=
  memory.cells[cellOf size address]?.getD 0

/-- Stores a byte at an address. A memory without cells stays as it is; `write?` refuses
it. -/
def write (memory : Memory size) (address : UInt16) (value : UInt8) : Memory size :=
  ⟨memory.cells.setIfInBounds (cellOf size address) value⟩

/-- The word at an address, high byte first. The second byte is at the next
sixteen-bit address, so both wrap on their own. -/
def word (memory : Memory size) (address : UInt16) : UInt16 :=
  (memory.read address).toUInt16 * 256 + (memory.read (address + 1)).toUInt16

theorem read_eq (memory : Memory size) (positive : 0 < size) (address : UInt16) :
    memory.read address =
      have := cellOf_lt positive address
      memory.cells[cellOf size address] := by
  simp [read, cellOf_lt positive address]

/-- Stores bytes in consecutive cells from a position on; what would pass the last
cell is dropped. -/
def place (memory : Memory size) (start : Nat) : List UInt8 → Memory size
  | [] => memory
  | value :: rest => place ⟨memory.cells.setIfInBounds start value⟩ (start + 1) rest

/-- A cell after `place` holds the byte placed there, or else what it held before. -/
theorem getElem_cells_place (memory : Memory size) (start : Nat) (values : List UInt8)
    (cell : Nat) (inside : cell < size) :
    (memory.place start values).cells[cell] =
      if start ≤ cell then (values[cell - start]?).getD memory.cells[cell]
      else memory.cells[cell] := by
  induction values generalizing memory start with
  | nil => simp [place]
  | cons value rest ih =>
    rw [place, ih]
    rcases Nat.lt_trichotomy start cell with below | same | above
    · obtain ⟨distance, rfl⟩ : ∃ distance, cell = start + 1 + distance :=
        ⟨cell - start - 1, by omega⟩
      have reach : start + 1 + distance - start = distance + 1 := by omega
      simp [reach, show start ≠ start + 1 + distance by omega,
        show start ≤ start + 1 + distance by omega]
    · subst same
      simp [show ¬ start + 1 ≤ start by omega]
    · simp [show ¬ start + 1 ≤ cell by omega,
        show ¬ start ≤ cell by omega, show start ≠ cell by omega]

/-- Whether a block of `length` bytes from an address on lies within memory. -/
def Holds (size : Nat) (start : UInt16) (length : Nat) : Prop :=
  start.toNat + length ≤ size

instance (size : Nat) (start : UInt16) (length : Nat) : Decidable (Holds size start length) :=
  inferInstanceAs (Decidable (_ ≤ _))

/-- Stores a block of bytes, unless it would pass the last cell. -/
def writeBlock? (memory : Memory size) (start : UInt16) (values : List UInt8) :
    Option (Memory size) :=
  if Holds size start values.length then some (memory.place start.toNat values) else none

/-- A block of bytes, unless it would pass the last cell. -/
def readBlock? (memory : Memory size) (start : UInt16) (length : Nat) : Option (List UInt8) :=
  if Holds size start length then
    some (memory.cells.extract start.toNat (start.toNat + length)).toList
  else none

theorem writeBlock?_of_fits (memory : Memory size) {start : UInt16} {values : List UInt8}
    (fits : start.toNat + values.length ≤ size) :
    memory.writeBlock? start values = some (memory.place start.toNat values) :=
  if_pos fits

theorem writeBlock?_of_passes (memory : Memory size) {start : UInt16} {values : List UInt8}
    (passes : size < start.toNat + values.length) : memory.writeBlock? start values = none :=
  if_neg (Nat.not_le.mpr passes)

theorem readBlock?_of_fits (memory : Memory size) {start : UInt16} {length : Nat}
    (fits : start.toNat + length ≤ size) :
    memory.readBlock? start length =
      some (memory.cells.extract start.toNat (start.toNat + length)).toList :=
  if_pos fits

theorem readBlock?_of_passes (memory : Memory size) {start : UInt16} {length : Nat}
    (passes : size < start.toNat + length) : memory.readBlock? start length = none :=
  if_neg (Nat.not_le.mpr passes)

/-- The cell that an address names, if memory has cells. -/
def cellOf? (size : Nat) (address : UInt16) : Option Nat :=
  if size = 0 then none else some (cellOf size address)

def read? (memory : Memory size) (address : UInt16) : Option UInt8 :=
  if size = 0 then none else some (memory.read address)

def word? (memory : Memory size) (address : UInt16) : Option UInt16 :=
  if size = 0 then none else some (memory.word address)

def write? (memory : Memory size) (address : UInt16) (value : UInt8) : Option (Memory size) :=
  if size = 0 then none else some (memory.write address value)

end Memory

end ChipEight
