import ChipEight.Instruction.Basic

/-!
# Listings

The listing form of an instruction, such as `SetConst(10, 60)`: its name, and its
operands as decimal numbers in brackets.
-/

set_option autoImplicit false

namespace ChipEight

namespace Arithmetic

def listingName : Arithmetic → String
  | .copy => "Copy"
  | .or => "Or"
  | .and => "And"
  | .xor => "Xor"
  | .add => "AddReg"
  | .subtract => "SubReg"
  | .shiftRight => "ShiftRight"
  | .subtractFrom => "SubNegReg"
  | .shiftLeft => "ShiftLeft"

end Arithmetic

namespace Condition

def listingParts : Condition → String × List Nat
  | .equalByte x byte => ("SkipIfEqConst", [x.val, byte.toNat])
  | .unequalByte x byte => ("SkipIfNeConst", [x.val, byte.toNat])
  | .equal x y => ("SkipIfEqReg", [x.val, y.val])
  | .unequal x y => ("SkipIfNeReg", [x.val, y.val])
  | .pressed x => ("SkipIfKey", [x.val])
  | .released x => ("SkipIfNotKey", [x.val])

end Condition

namespace Instruction

/-- The name of an instruction in a listing, with its operands. -/
def listingParts : Instruction → String × List Nat
  | .clearScreen => ("ClearScreen", [])
  | .ret => ("Return", [])
  | .jump target => ("Jump", [target.val])
  | .call target => ("Call", [target.val])
  | .skip condition => condition.listingParts
  | .setByte x byte => ("SetConst", [x.val, byte.toNat])
  | .addByte x byte => ("AddConst", [x.val, byte.toNat])
  | .arithmetic operation x y => (operation.listingName, [x.val, y.val])
  | .setIndex target => ("SetIndex", [target.val])
  | .jumpOffset target => ("JumpOffset", [target.val])
  | .random x mask => ("Random", [x.val, mask.toNat])
  | .draw x y rows => ("Draw", [x.val, y.val, rows.val])
  | .readDelay x => ("GetDelay", [x.val])
  | .awaitKey x => ("WaitKey", [x.val])
  | .setDelay x => ("SetDelay", [x.val])
  | .setSound x => ("SetSound", [x.val])
  | .addIndex x => ("AddIndex", [x.val])
  | .glyph x => ("FontGlyph", [x.val])
  | .storeDecimal x => ("StoreBcd", [x.val])
  | .storeRegisters x => ("StoreRegs", [x.val])
  | .loadRegisters x => ("LoadRegs", [x.val])

def listing (instruction : Instruction) : String :=
  match instruction.listingParts with
  | (name, []) => name
  | (name, operands) => name ++ "(" ++ ", ".intercalate (operands.map toString) ++ ")"

example : (setByte ⟨0xa, by decide⟩ 0x3c).listing = "SetConst(10, 60)" := by rfl

end Instruction

end ChipEight
