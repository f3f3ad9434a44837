import ChipEight.Instruction.Basic

/-!
# Instruction words

The word of each instruction, read off the instruction table: the first digit
names the group, and the other three hold operands or select within the group.
-/

set_option autoImplicit false

namespace ChipEight

def Arithmetic.selector : Arithmetic → Nat
  | .copy => 0x0
  | .or => 0x1
  | .and => 0x2
  | .xor => 0x3
  | .add => 0x4
  | .subtract => 0x5
  | .shiftRight => 0x6
  | .subtractFrom => 0x7
  | .shiftLeft => 0xe

namespace Instruction

def addressWord (group : Nat) (target : Address) : UInt16 :=
  UInt16.ofNat (group * 4096 + target.val)

def byteWord (group : Nat) (x : Register) (byte : UInt8) : UInt16 :=
  UInt16.ofNat (group * 4096 + x.val * 256 + byte.toNat)

def registerWord (group : Nat) (x y : Register) (last : Nat) : UInt16 :=
  UInt16.ofNat (group * 4096 + x.val * 256 + y.val * 16 + last)

def skipWord : Condition → UInt16
  | .equalByte x byte => byteWord 0x3 x byte
  | .unequalByte x byte => byteWord 0x4 x byte
  | .equal x y => registerWord 0x5 x y 0
  | .unequal x y => registerWord 0x9 x y 0
  | .pressed x => byteWord 0xe x 0x9e
  | .released x => byteWord 0xe x 0xa1

def encode : Instruction → UInt16
  | .clearScreen => 0x00e0
  | .ret => 0x00ee
  | .jump target => addressWord 0x1 target
  | .call target => addressWord 0x2 target
  | .skip condition => skipWord condition
  | .setByte x byte => byteWord 0x6 x byte
  | .addByte x byte => byteWord 0x7 x byte
  | .arithmetic operation x y => registerWord 0x8 x y operation.selector
  | .setIndex target => addressWord 0xa target
  | .jumpOffset target => addressWord 0xb target
  | .random x mask => byteWord 0xc x mask
  | .draw x y rows => registerWord 0xd x y rows.val
  | .readDelay x => byteWord 0xf x 0x07
  | .awaitKey x => byteWord 0xf x 0x0a
  | .setDelay x => byteWord 0xf x 0x15
  | .setSound x => byteWord 0xf x 0x18
  | .addIndex x => byteWord 0xf x 0x1e
  | .glyph x => byteWord 0xf x 0x29
  | .storeDecimal x => byteWord 0xf x 0x33
  | .storeRegisters x => byteWord 0xf x 0x55
  | .loadRegisters x => byteWord 0xf x 0x65

end Instruction

end ChipEight
