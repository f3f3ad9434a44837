import ChipEight.Fault
import ChipEight.Instruction.Basic

/-!
# Decoding

From a word back to its instruction. A word is taken apart into digits; a group
that selects by its later digits accepts exactly the selectors of the table, and
the word of no instruction is refused with the word itself.
-/

set_option autoImplicit false

namespace ChipEight

def Arithmetic.ofSelector? (selector : Nat) : Option Arithmetic :=
  match selector with
  | 0x0 => some .copy
  | 0x1 => some .or
  | 0x2 => some .and
  | 0x3 => some .xor
  | 0x4 => some .add
  | 0x5 => some .subtract
  | 0x6 => some .shiftRight
  | 0x7 => some .subtractFrom
  | 0xe => some .shiftLeft
  | _ => none

namespace Instruction

/-- The instruction of a word whose group digit is F. -/
def ofMiscellaneous? (x : Register) (selector : Nat) : Option Instruction :=
  match selector with
  | 0x07 => some (.readDelay x)
  | 0x0a => some (.awaitKey x)
  | 0x15 => some (.setDelay x)
  | 0x18 => some (.setSound x)
  | 0x1e => some (.addIndex x)
  | 0x29 => some (.glyph x)
  | 0x33 => some (.storeDecimal x)
  | 0x55 => some (.storeRegisters x)
  | 0x65 => some (.loadRegisters x)
  | _ => none

def decode? (word : UInt16) : Option Instruction :=
  let value := word.toNat
  let x : Register := Text.lastDigit (value / 256)
  let y : Register := Text.lastDigit (value / 16)
  let last := value % 16
  let byte : UInt8 := UInt8.ofNat value
  let target : Address := lowAddress value
  match value / 4096 with
  | 0x0 =>
    match value with
    | 0x00e0 => some .clearScreen
    | 0x00ee => some .ret
    | _ => none
  | 0x1 => some (.jump target)
  | 0x2 => some (.call target)
  | 0x3 => some (.skip (.equalByte x byte))
  | 0x4 => some (.skip (.unequalByte x byte))
  | 0x5 => if last = 0 then some (.skip (.equal x y)) else none
  | 0x6 => some (.setByte x byte)
  | 0x7 => some (.addByte x byte)
  | 0x8 => (Arithmetic.ofSelector? last).map fun operation => .arithmetic operation x y
  | 0x9 => if last = 0 then some (.skip (.unequal x y)) else none
  | 0xa => some (.setIndex target)
  | 0xb => some (.jumpOffset target)
  | 0xc => some (.random x byte)
  | 0xd => some (.draw x y (Text.lastDigit value))
  | 0xe =>
    match value % 256 with
    | 0x9e => some (.skip (.pressed x))
    | 0xa1 => some (.skip (.released x))
    | _ => none
  | _ => ofMiscellaneous? x (value % 256)

/-- The instruction of a word; a word without one is reported as unsupported. -/
def decode (word : UInt16) : Except Fault Instruction :=
  match decode? word with
  | some instruction => .ok instruction
  | none => .error (.unsupportedWord word)

end Instruction

end ChipEight
