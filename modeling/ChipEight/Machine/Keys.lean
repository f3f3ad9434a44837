import ChipEight.Machine.State

/-!
# Keys of the machine

A key press is noted on the keypad. If one is awaited it also goes to its register,
and the machine goes on behind the instruction that waited.
-/

set_option autoImplicit false

namespace ChipEight.Machine

/-- The end of a wait for a key press, if there is one. -/
def resume (machine : Machine) (key : UInt8) : Machine :=
  match machine.awaiting with
  | none => machine
  | some x =>
    { machine with awaiting := none, counter := machine.counter + 2 }.setRegister x key

def press (machine : Machine) (key : UInt8) : Except Fault Unit × Machine :=
  if key > 0xf then (.error (.keyOutOfRange key), machine)
  else (.ok (), { machine with keypad := machine.keypad.press key }.resume key)

def release (machine : Machine) (key : UInt8) : Except Fault Unit × Machine :=
  if key > 0xf then (.error (.keyOutOfRange key), machine)
  else (.ok (), { machine with keypad := machine.keypad.release key })

end ChipEight.Machine
