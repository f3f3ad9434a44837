import ChipEight.Machine.State

/-!
# Loading a program

A program that fits replaces the one before it, and the machine starts over; one that
does not leaves the machine alone. The random bytes go on where they were.
-/

set_option autoImplicit false

namespace ChipEight.Machine

/-- The machine ready to run the program in its memory. -/
def restart (machine : Machine) : Machine :=
  { machine with
    screen := .blank
    registers := Vector.replicate 16 0
    index := 0
    counter := machine.memory.origin
    stack := []
    delay := 0
    delaySince := 0
    sound := .silent
    keypad := .idle
    awaiting := none }

/-- Takes over what loading has made of the memory, and starts over if it succeeded. -/
def install (machine : Machine) (outcome : Except Fault Unit × ProgramMemory) :
    Except Fault Unit × Machine :=
  match outcome with
  | (.ok (), memory) => (.ok (), { machine with memory }.restart)
  | (.error fault, memory) => (.error fault, { machine with memory })

def load (machine : Machine) (program : List UInt8) : Except Fault Unit × Machine :=
  machine.install (machine.memory.load program)

def loadFrom (machine : Machine) (stream : ByteStream) : Except Fault Unit × Machine :=
  machine.install (machine.memory.loadFrom stream)

def loadThrough {State : Type} (machine : Machine) (reader : Reader State) (state : State) :
    Except Fault Unit × Machine :=
  machine.install (machine.memory.loadThrough reader state)

end ChipEight.Machine
