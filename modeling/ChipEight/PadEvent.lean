/-!
# Keypad events

What happens on the host, told in terms of the keypad. A number above
fifteen can be written down here, and it is for the machine to refuse it.
-/

set_option autoImplicit false

namespace ChipEight

/-- Something that happened on the host. -/
inductive PadEvent where
  | press (key : UInt8)
  | release (key : UInt8)
  | quit
deriving DecidableEq, Repr

end ChipEight
