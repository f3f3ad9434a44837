/-!
# Instructions

The thirty-four instructions of the machine, with operands that cannot leave
their field: a register is one of sixteen, an address has twelve bits.
-/

set_option autoImplicit false

namespace ChipEight

/-- One of the general registers V0 to VF. -/
abbrev Register := Fin 16

/-- V0, which is added to the target of an offset jump. -/
def offsetRegister : Register := ⟨0x0, by decide⟩

/-- VF, which also takes the carry, borrow and collision flag. -/
def flagRegister : Register := ⟨0xf, by decide⟩

/-- A twelve-bit address, as instructions hold it. -/
abbrev Address := Fin 4096

/-- The low twelve bits of a number as an address. -/
def lowAddress (number : Nat) : Address := ⟨number % 4096, Nat.mod_lt number (by decide)⟩

/-- What an instruction of the arithmetic group does with VX and VY. The two
shifts look at VX alone. -/
inductive Arithmetic where
  | copy
  | or
  | and
  | xor
  | add
  /-- VX less VY. -/
  | subtract
  | shiftRight
  /-- VY less VX. -/
  | subtractFrom
  | shiftLeft
deriving DecidableEq, Repr

inductive Condition where
  | equalByte (x : Register) (byte : UInt8)
  | unequalByte (x : Register) (byte : UInt8)
  | equal (x y : Register)
  | unequal (x y : Register)
  | pressed (x : Register)
  | released (x : Register)
deriving DecidableEq, Repr

inductive Instruction where
  | clearScreen
  /-- Continue at the newest return address. -/
  | ret
  | jump (target : Address)
  | call (target : Address)
  | skip (condition : Condition)
  | setByte (x : Register) (byte : UInt8)
  /-- Add to VX, leaving the flag alone. -/
  | addByte (x : Register) (byte : UInt8)
  | arithmetic (operation : Arithmetic) (x y : Register)
  | setIndex (target : Address)
  /-- Jump to the address plus V0. -/
  | jumpOffset (target : Address)
  /-- Put a random byte into VX, masked. -/
  | random (x : Register) (mask : UInt8)
  /-- Draw the sprite of `rows` bytes at I with its corner at (VX, VY). -/
  | draw (x y : Register) (rows : Fin 16)
  | readDelay (x : Register)
  /-- Wait until a key goes down and put its number into VX. -/
  | awaitKey (x : Register)
  | setDelay (x : Register)
  | setSound (x : Register)
  | addIndex (x : Register)
  /-- Point I at the glyph of the digit in VX. -/
  | glyph (x : Register)
  /-- Write the three decimal digits of VX at I. -/
  | storeDecimal (x : Register)
  /-- Write V0 to VX at I. -/
  | storeRegisters (x : Register)
  /-- Read V0 to VX from I. -/
  | loadRegisters (x : Register)
deriving DecidableEq, Repr

end ChipEight
