import ChipEight.Memory.Basic
import ChipEight.Memory.Font
import ChipEight.Reader

/-!
# Program memory

The memory map of the machine: the font at the bottom, a reserved area, and the
program from its address on. Loading lays the whole memory out anew.
-/

set_option autoImplicit false

namespace ChipEight

abbrev ramSize : Nat := 4096

def programStart : UInt16 := 0x0200

/-- The most bytes that a program may have: what is left beside the font and the
area below the program. -/
def programLimit : Nat := ramSize - programStart.toNat - Font.glyphs.length

/-- A memory and the place of the program in it. -/
structure ProgramMemory where
  ram : Memory ramSize
  origin : UInt16
  programSize : Nat
deriving DecidableEq

namespace ProgramMemory

/-- The font, zeros, and a program from an address on. Where the program covers the
font, the program stays. -/
def layout (address : UInt16) (program : List UInt8) : Memory ramSize :=
  ((Memory.zeroed ramSize).place Font.address.toNat Font.glyphs).place address.toNat program

/-- Memory that holds nothing but the font. -/
def blank : ProgramMemory := ⟨layout programStart [], programStart, 0⟩

/-- Loads a program. One over the limit is refused and changes nothing. One that
would pass the end of memory is refused once everything but the font is cleared. -/
def load (program : List UInt8) (memory : ProgramMemory) :
    Except Fault Unit × ProgramMemory :=
  if program.length > programLimit then
    (.error (.programTooLarge program.length programLimit), memory)
  else if Memory.Holds ramSize memory.origin program.length then
    (.ok (),
      { memory with
        ram := layout memory.origin program
        programSize := program.length })
  else
    (.error .programOutsideMemory, { memory with ram := layout memory.origin [] })

/-- Loads a program from a stream. One byte over the limit is enough to see that a
program is too large, so no more are read. -/
def loadFrom (stream : ByteStream) (memory : ProgramMemory) :
    Except Fault Unit × ProgramMemory :=
  match stream.readUpTo (programLimit + 1) with
  | .ok program => memory.load program
  | .error cause => (.error (.programUnreadable cause), memory)

/-- Loads a program from anything that can be read from, as `loadFrom` does from a stream. -/
def loadThrough {State : Type} (reader : Reader State) (state : State)
    (memory : ProgramMemory) : Except Fault Unit × ProgramMemory :=
  match (reader.gather (programLimit + 1) state).outcome with
  | .ok program => memory.load program
  | .error cause => (.error (.programUnreadable cause), memory)

theorem loadFrom_eq_loadThrough (stream : ByteStream) (memory : ProgramMemory) :
    memory.loadFrom stream = memory.loadThrough ByteStream.reader stream := by
  rw [loadFrom, loadThrough, ByteStream.readUpTo_eq_gather]

end ProgramMemory

end ChipEight
