import ChipEight.PadEvent
import ChipEight.Keyboard.Layout

/-!
# Held keys

A terminal tells when a key is pressed and never when it is let go, so a key counts
as held for a fixed time after its latest press. Times are nanoseconds.
-/

set_option autoImplicit false

namespace ChipEight

inductive TerminalEvent where
  /-- A character was typed, with or without control or alt. -/
  | character (value : Char)
  | escape
  /-- A key without a character, or no key at all. -/
  | other
deriving DecidableEq, Repr

namespace TerminalEvent

/-- What typing a character means. Control characters are what terminals send for a
character typed with control, but for those that have a key of their own. -/
def ofTyped (typed : Char) : TerminalEvent :=
  let code := typed.toNat
  if code = 0x1b then .escape
  else if code = 0x09 ∨ code = 0x0d ∨ code = 0x7f then .other
  else if code = 0x00 then .character ' '
  else if code < 0x1b then .character (Char.ofNat ('a'.toNat + (code - 0x01)))
  else if code < 0x20 then .character (Char.ofNat ('4'.toNat + (code - 0x1c)))
  else .character typed

end TerminalEvent

/-- A keyboard with the keys that count as held, each with the time of its latest press. -/
structure Keyboard where
  layout : KeyLayout
  held : Vector (Option Nat) 16
deriving DecidableEq

namespace Keyboard

/-- How long a key counts as held after a press: 120 milliseconds. -/
def holdTime : Nat := 120000000

def new (layout : KeyLayout) : Keyboard := ⟨layout, Vector.replicate 16 none⟩

/-- What an event at the time `now` tells the machine. A press of a key that is held
already only makes it held for longer. -/
def notice (keyboard : Keyboard) (now : Nat) (event : TerminalEvent) :
    List PadEvent × Keyboard :=
  match event with
  | .character value =>
    match keyboard.layout.key? value with
    | none => ([], keyboard)
    | some key =>
      (if keyboard.held[key].isNone then [.press (UInt8.ofNat key.val)] else [],
        { keyboard with held := keyboard.held.set key (some now) })
  | .escape => ([.quit], keyboard)
  | .other => ([], keyboard)

def noticeAll (keyboard : Keyboard) : List (Nat × TerminalEvent) → List PadEvent × Keyboard
  | [] => ([], keyboard)
  | (now, event) :: later =>
    let (first, keyboard) := keyboard.notice now event
    let (others, keyboard) := keyboard.noticeAll later
    (first ++ others, keyboard)

/-- Whether a key is held and has not been pressed for the hold time. -/
def overdue (keyboard : Keyboard) (now : Nat) (key : Fin 16) : Bool :=
  match keyboard.held[key] with
  | none => false
  | some since => decide (holdTime ≤ now - since)

/-- Lets go of the keys that are held for long enough, in the order of the keypad. -/
def letGo (keyboard : Keyboard) (now : Nat) : List PadEvent × Keyboard :=
  (((List.finRange 16).filter (keyboard.overdue now)).map fun (key : Fin 16) =>
      .release (UInt8.ofNat key.val),
    { keyboard with
      held := Vector.ofFn fun key =>
        if keyboard.overdue now key then none else keyboard.held[key] })

/-- All that happened since the last poll: the events that have arrived, and then the
keys to let go of at the time `closing`. -/
def poll (keyboard : Keyboard) (arrived : List (Nat × TerminalEvent)) (closing : Nat) :
    List PadEvent × Keyboard :=
  let (presses, keyboard) := keyboard.noticeAll arrived
  let (releases, keyboard) := keyboard.letGo closing
  (presses ++ releases, keyboard)

end Keyboard

end ChipEight
