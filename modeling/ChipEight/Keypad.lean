/-!
# Keypad

Which of the sixteen hexadecimal keys are down, one bit a key. A number above
fifteen is no key: it is never down, and pressing or releasing it does nothing.
-/

set_option autoImplicit false

namespace ChipEight

/-- The keys that are down, key `k` as bit `k`. -/
structure Keypad where
  mask : UInt16
deriving DecidableEq, Repr

namespace Keypad

def idle : Keypad := ⟨0⟩

def bit (key : UInt8) : UInt16 := 1 <<< key.toUInt16

def isDown (keypad : Keypad) (key : UInt8) : Bool :=
  key ≤ 0xf && keypad.mask &&& bit key != 0

def press (keypad : Keypad) (key : UInt8) : Keypad :=
  if key ≤ 0xf then ⟨keypad.mask ||| bit key⟩ else keypad

def release (keypad : Keypad) (key : UInt8) : Keypad :=
  if key ≤ 0xf then ⟨keypad.mask &&& ~~~bit key⟩ else keypad

end Keypad

end ChipEight
