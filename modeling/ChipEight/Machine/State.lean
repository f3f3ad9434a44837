import ChipEight.Instruction.Basic
import ChipEight.Keypad
import ChipEight.Memory.Program
import ChipEight.RandomBytes
import ChipEight.Screen.Basic
import ChipEight.Sound.Timer

/-!
# State of the machine

All that a program can see, and the bookkeeping of the delay timer. The machine has
no clock of its own: its host tells it the time in ticks at every step.
-/

set_option autoImplicit false

namespace ChipEight

def callDepthLimit : Nat := 16

structure Machine where
  memory : ProgramMemory
  screen : Screen
  registers : Vector UInt8 16
  index : UInt16
  counter : UInt16
  /-- The return addresses of the calls under way, the newest first. -/
  stack : List UInt16
  delay : UInt8
  /-- When the delay timer was last set or counted down. -/
  delaySince : UInt64
  /-- The time of the step under way, or else of the last one. -/
  now : UInt64
  sound : SoundTimer
  keypad : Keypad
  /-- The register that the next key press goes to, while one is awaited. -/
  awaiting : Option Register
  random : RandomBytes

namespace Machine

def new (random : RandomBytes) : Machine where
  memory := .blank
  screen := .blank
  registers := Vector.replicate 16 0
  index := 0
  counter := programStart
  stack := []
  delay := 0
  delaySince := 0
  now := 0
  sound := .silent
  keypad := .idle
  awaiting := none
  random

def register (machine : Machine) (x : Register) : UInt8 := machine.registers[x]

def setRegister (machine : Machine) (x : Register) (value : UInt8) : Machine :=
  { machine with registers := machine.registers.set x value }

def setFlag (machine : Machine) (flag : Bool) : Machine :=
  machine.setRegister flagRegister flag.toUInt8

def readAt (machine : Machine) (offset : Nat) : UInt8 :=
  machine.memory.ram.read (machine.index + UInt16.ofNat offset)

def writeAt (machine : Machine) (offset : Nat) (value : UInt8) : Machine :=
  { machine with
    memory :=
      { machine.memory with
        ram := machine.memory.ram.write (machine.index + UInt16.ofNat offset) value } }

theorem register_setRegister (machine : Machine) (x y : Register) (value : UInt8) :
    (machine.setRegister x value).register y = if x = y then value else machine.register y := by
  simp [register, setRegister, Vector.getElem_set, Fin.ext_iff]

end Machine

end ChipEight
