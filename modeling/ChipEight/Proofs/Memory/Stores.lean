import ChipEight.Proofs.Cells.Memory

/-!
# Memory as a store

Memory of any size after any stores holds in every cell the byte that was put there last, by a
single store to an address that comes to this cell or by a block that covers it. Single accesses
are always made, and blocks exactly if they lie within memory.
-/

set_option autoImplicit false

namespace ChipEight

/-- A change of memory. -/
inductive Store where
  | byte (address : UInt16) (value : UInt8)
  | block (start : UInt16) (values : List UInt8)
deriving DecidableEq, Repr

namespace Store

/-- The byte that a store puts into a cell of a memory with `size` cells, if it puts any there. A
block that passes the last cell puts none into any. -/
def into? (size cell : Nat) : Store → Option UInt8
  | .byte address value => if address.toNat % size = cell then some value else none
  | .block start values =>
    if start.toNat + values.length ≤ size ∧ start.toNat ≤ cell then
      values[cell - start.toNat]?
    else none

/-- The byte that the latest store into a cell has put there, or zero if there was none. -/
def lastInto (size : Nat) (stores : List Store) (cell : Nat) : UInt8 :=
  (stores.reverse.findSome? (·.into? size cell)).getD 0

end Store

namespace Memory

open Cells

variable {size : Nat} (memory : Memory size)

def make? (memory : Memory size) : Store → Option (Memory size)
  | .byte address value => memory.write? address value
  | .block start values => memory.writeBlock? start values

/-- Makes a store. One that is refused leaves memory as it was. -/
def make (memory : Memory size) (store : Store) : Memory size := (memory.make? store).getD memory

def makeAll (memory : Memory size) (stores : List Store) : Memory size := stores.foldl make memory

/-! ## What a cell holds -/

theorem getElem_make (store : Store) {cell : Nat} (inside : cell < size) :
    (memory.make store).cells[cell] = (store.into? size cell).getD memory.cells[cell] := by
  cases store with
  | byte address value =>
      have made : memory.make (.byte address value) = memory.write address value := by
        rw [make, make?, write?, if_neg (Nat.ne_of_gt (Nat.zero_lt_of_lt inside)), Option.getD_some]
      simp only [made, write, Vector.getElem_setIfInBounds, Store.into?, cellOf]
      split <;> rfl
  | block start values =>
      rcases Nat.lt_or_ge size (start.toNat + values.length) with passes | fits
      · have refused : memory.make (.block start values) = memory := by
          rw [make, make?, writeBlock?_of_passes memory passes, Option.getD_none]
        simp only [refused, Store.into?, Nat.not_le.mpr passes, false_and, if_false,
          Option.getD_none]
      · have placed : memory.make (.block start values) = memory.place start.toNat values := by
          rw [make, make?, writeBlock?_of_fits memory fits, Option.getD_some]
        simp only [placed, getElem_cells_place, Store.into?, fits, true_and]
        split <;> rfl

theorem getElem_makeAll (stores : List Store) {cell : Nat} (inside : cell < size) :
    (memory.makeAll stores).cells[cell] =
      (stores.reverse.findSome? (·.into? size cell)).getD memory.cells[cell] := by
  induction stores generalizing memory with
  | nil => rfl
  | cons store later ih =>
      rw [makeAll, List.foldl_cons, ← makeAll, ih, getElem_make, List.reverse_cons,
        List.findSome?_append, List.findSome?_singleton]
      -- Only where no later store reaches the cell does the first one count.
      cases later.reverse.findSome? (·.into? size cell) with
      | some byte => rfl
      | none => rfl

theorem getElem_makeAll_zeroed (stores : List Store) {cell : Nat} (inside : cell < size) :
    ((zeroed size).makeAll stores).cells[cell] = Store.lastInto size stores cell := by
  have zero : (zeroed size).cells[cell] = 0 := Vector.getElem_replicate inside
  rw [getElem_makeAll, zero]
  rfl

theorem toNat_word (address : UInt16) :
    (memory.word address).toNat =
      256 * (memory.read address).toNat + (memory.read (address + 1)).toNat := by
  have high := (memory.read address).toNat_lt
  have low := (memory.read (address + 1)).toNat_lt
  simp only [word, UInt16.toNat_add, UInt16.toNat_mul, UInt8.toNat_toUInt16, UInt16.reduceToNat]
  omega

/-- Where the size divides the number of addresses, the next address names the next cell, and the
first cell follows the last. -/
theorem cellOf_add_one (even : size ∣ 65536) (address : UInt16) :
    cellOf size (address + 1) = (cellOf size address + 1) % size := by
  rw [cellOf, cellOf, UInt16.toNat_add, Nat.mod_mod_of_dvd _ even, Nat.mod_add_mod]
  rfl

/-! ## Blocks -/

theorem writeBlock?_eq_none_iff {start : UInt16} {values : List UInt8} :
    memory.writeBlock? start values = none ↔ size < start.toNat + values.length := by
  rcases Nat.lt_or_ge size (start.toNat + values.length) with passes | fits
  · exact iff_of_true (writeBlock?_of_passes memory passes) passes
  · rw [writeBlock?_of_fits memory fits]
    exact iff_of_false (Option.some_ne_none _) (Nat.not_lt.mpr fits)

theorem readBlock?_makeAll_zeroed (stores : List Store) (start : UInt16) (length : Nat) :
    ((zeroed size).makeAll stores).readBlock? start length =
      if size < start.toNat + length then none
      else some ((List.range length).map fun offset =>
        Store.lastInto size stores (start.toNat + offset)) := by
  rcases Nat.lt_or_ge size (start.toNat + length) with passes | fits
  · rw [readBlock?_of_passes _ passes, if_pos passes]
  · rw [readBlock?_of_fits _ fits, if_neg (Nat.not_lt.mpr fits)]
    congr 1
    apply List.ext_getElem
    · rw [Vector.length_toList, List.length_map, List.length_range]
      omega
    · intro offset inBlock inRange
      have within : offset < length := by simpa using inRange
      have inside : start.toNat + offset < size := by omega
      rw [Vector.getElem_toList, Vector.getElem_extract, getElem_makeAll_zeroed stores inside,
        List.getElem_map, List.getElem_range]

end Memory

/-! ## Cell by cell -/

namespace Cells

def make (bytes : Array UInt8) : Store → Option Trap × Array UInt8
  | .byte address value => writeByte bytes address value
  | .block start values => writeBlock bytes start values

/-- Makes stores in turn; one that traps does not keep the later ones from being made. -/
def makeAll (bytes : Array UInt8) (stores : List Store) : Array UInt8 :=
  stores.foldl (fun bytes store => (make bytes store).2) bytes

/-- Accesses made cell by cell give what they give on memory, with a trap where memory refuses
one, and a store leaves what it leaves there. -/
structure Follows {size : Nat} (bytes : Array UInt8) (memory : Memory size) : Prop where
  byte : ∀ address, (readByte bytes address).toOption = memory.read? address
  word : ∀ address, (readWord bytes address).toOption = memory.word? address
  block : ∀ start length,
    (readBlock bytes start length).toOption = memory.readBlock? start length
  store : ∀ store, (make bytes store).1.isNone = (memory.make? store).isSome ∧
    (make bytes store).2 = (memory.make store).cells.toArray

end Cells

namespace Memory

open Cells

variable {size : Nat} (memory : Memory size)

theorem block_traps_iff {start : UInt16} {values : List UInt8} :
    (∃ trap, Cells.make memory.cells.toArray (.block start values) =
      (some trap, memory.cells.toArray)) ↔ size < start.toNat + values.length := by
  constructor
  · rintro ⟨trap, trapped⟩
    rcases Nat.lt_or_ge size (start.toNat + values.length) with passes | fits
    · exact passes
    · cases trapped.symm.trans (replace_cells memory fits)
  · intro passes
    exact ⟨_, replace_cells_of_outside memory passes⟩

theorem make_cells_of_some {store : Store} {after : Memory size}
    (made : memory.make? store = some after) :
    Cells.make memory.cells.toArray store = (none, after.cells.toArray) := by
  cases store with
  | byte address value =>
      rw [make?, write?, Option.ite_none_left_eq_some] at made
      obtain ⟨nonempty, stored⟩ := made
      cases stored
      exact writeByte_cells memory (Nat.pos_of_ne_zero nonempty) address value
  | block start values =>
      rw [make?, writeBlock?, Option.ite_none_right_eq_some] at made
      obtain ⟨fits, stored⟩ := made
      cases stored
      exact replace_cells memory fits

theorem make_cells_of_none {store : Store} (refused : memory.make? store = none) :
    ∃ trap, Cells.make memory.cells.toArray store = (some trap, memory.cells.toArray) := by
  cases store with
  | byte address value =>
      rcases Nat.eq_zero_or_pos size with empty | positive
      · exact ⟨_, writeByte_cells_of_empty memory empty address value⟩
      · rw [make?, write?, if_neg (Nat.ne_of_gt positive)] at refused
        cases refused
  | block start values =>
      exact (block_traps_iff memory).mpr ((writeBlock?_eq_none_iff memory).mp refused)

theorem follows_cells : Follows memory.cells.toArray memory where
  byte address := by
    rw [read?]
    split
    case isTrue empty => rw [readByte_cells_of_empty memory empty]; rfl
    case isFalse nonempty => rw [readByte_cells memory (Nat.pos_of_ne_zero nonempty)]; rfl
  word address := by
    rw [word?]
    split
    case isTrue empty => rw [readWord, readByte_cells_of_empty memory empty]; rfl
    case isFalse nonempty => rw [readWord_cells memory (Nat.pos_of_ne_zero nonempty)]; rfl
  block := readBlock_cells memory
  store store := by
    cases outcome : memory.make? store with
    | none =>
        obtain ⟨trap, trapped⟩ := make_cells_of_none memory outcome
        rw [trapped, make, outcome]
        exact ⟨rfl, rfl⟩
    | some after =>
        rw [make_cells_of_some memory outcome, make, outcome]
        exact ⟨rfl, rfl⟩

theorem makeAll_cells (stores : List Store) :
    Cells.makeAll memory.cells.toArray stores = (memory.makeAll stores).cells.toArray := by
  induction stores generalizing memory with
  | nil => rfl
  | cons store later ih =>
      rw [Cells.makeAll, List.foldl_cons, ← Cells.makeAll, (memory.follows_cells.store store).2, ih]
      rfl

/-- Whatever stores have been made, a single read gives the byte that went last into the cell of its
address, or zero; single accesses and words are never refused, and a word is made of the bytes at
its address and the next one. A block is refused exactly if it passes the last cell, with nothing
of it stored. Made cell by cell, all accesses come to the same. -/
theorem holds_last_stored {size : Nat} (positive : 0 < size) (stores : List Store) :
    let memory := (zeroed size).makeAll stores
    let bytes := Cells.makeAll (Array.replicate size 0) stores
    (∀ address,
      memory.read? address = some (Store.lastInto size stores (address.toNat % size))) ∧
    (∀ address value, memory.write? address value ≠ none) ∧
    (∀ address, ∃ word high low, memory.word? address = some word ∧
      memory.read? address = some high ∧ memory.read? (address + 1) = some low ∧
      word.toNat = 256 * high.toNat + low.toNat ∧
      (size ∣ 65536 →
        low = Store.lastInto size stores ((address.toNat % size + 1) % size))) ∧
    (∀ start values,
      (memory.writeBlock? start values = none ↔ size < start.toNat + values.length) ∧
      ((∃ trap, Cells.make bytes (.block start values) = (some trap, bytes)) ↔
        size < start.toNat + values.length)) ∧
    (∀ start length, memory.readBlock? start length =
      if size < start.toNat + length then none
      else some ((List.range length).map fun offset =>
        Store.lastInto size stores (start.toNat + offset))) ∧
    bytes = memory.cells.toArray ∧ Follows bytes memory := by
  intro memory bytes
  have nonempty : size ≠ 0 := Nat.ne_of_gt positive
  have same : bytes = memory.cells.toArray := by
    have start : (zeroed size).cells.toArray = Array.replicate size 0 := Vector.toArray_replicate
    rw [← makeAll_cells, start]
  have last : ∀ address, memory.read address = Store.lastInto size stores (cellOf size address) :=
    fun address => (read_eq memory positive address).trans
      (getElem_makeAll_zeroed stores (cellOf_lt positive address))
  have made : ∀ address, memory.read? address = some (memory.read address) :=
    fun address => if_neg nonempty
  refine ⟨fun address => ?_, fun address value => ?_, fun address => ?_, fun start values => ?_,
    readBlock?_makeAll_zeroed stores, same, ?_⟩
  · rw [made, last, cellOf]
  · rw [write?, if_neg nonempty]
    exact Option.some_ne_none _
  · refine ⟨memory.word address, memory.read address, memory.read (address + 1), if_neg nonempty,
      made address, made (address + 1), toNat_word memory address, fun even => ?_⟩
    rw [last, cellOf_add_one even, cellOf]
  · rw [same]
    exact ⟨writeBlock?_eq_none_iff memory, block_traps_iff memory⟩
  · rw [same]
    exact follows_cells memory

/-- A block up to the last cell, a single store past it that comes to the first cell of the block,
a block that is refused, a store at the highest address, and a word from the last cell and the
first. -/
theorem holds_last_stored_wrapping :
    let stores : List Store :=
      [.block 5 [1, 2, 3], .byte 13 7, .block 6 [8, 9, 10], .byte 65535 4, .byte 8 6]
    let memory := (zeroed 8).makeAll stores
    0 < 8 ∧ 8 ∣ 65536 ∧ memory.read? 21 = some 7 ∧ memory.read? 6 = some 2 ∧
      memory.read? 1 = some 0 ∧ (∃ word, memory.word? 15 = some word ∧ word.toNat = 0x0406) ∧
      memory.writeBlock? 6 [8, 9, 10] = none ∧ memory.readBlock? 5 3 = some [7, 2, 4] ∧
      memory.readBlock? 5 4 = none := by
  intro stores memory
  have positive : 0 < 8 := by decide
  have even : 8 ∣ 65536 := by decide
  obtain ⟨reads, -, words, blocks, block, -, -⟩ := holds_last_stored positive stores
  obtain ⟨word, high, low, isWord, isHigh, -, sum, next⟩ := words 15
  have highByte : high = 4 := Option.some.inj (isHigh.symm.trans (reads 15))
  have lowByte : low = 6 := next even
  rw [highByte, lowByte] at sum
  exact ⟨positive, even, reads 21, reads 6, reads 1, ⟨word, isWord, sum⟩,
    (blocks 6 [8, 9, 10]).1.mpr (by decide), block 5 3, block 5 4⟩

end Memory

end ChipEight
