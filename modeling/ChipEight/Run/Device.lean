import ChipEight.Fault
import ChipEight.PadEvent
import ChipEight.Keyboard.Held
import ChipEight.Screen.Basic

/-!
# Devices of a run

A run polls an input and draws on a display. Either may fail at any call, and each
may remember all that went before, so a device is what its call does to its state.
-/

set_option autoImplicit false

namespace ChipEight

structure InputDevice (State : Type) where
  /-- All that happened since the last poll, oldest first. -/
  poll : State → Except DeviceFailure (List PadEvent) × State

structure DisplayDevice (State : Type) where
  draw : Screen → State → Except DeviceFailure Unit × State

/-- How often a device still works, and how it fails after that. -/
structure Breakdown where
  left : Nat
  cause : DeviceFailure
deriving DecidableEq, Repr

/-- One call of a device that may break down: it fails, or has one call less left. -/
def Breakdown.use : Option Breakdown → Except DeviceFailure (Option Breakdown)
  | none => .ok none
  | some ⟨0, cause⟩ => .error cause
  | some ⟨left + 1, cause⟩ => .ok (some ⟨left, cause⟩)

/-- Batches of events, one for each poll. -/
structure EventScript where
  batches : List (List PadEvent)
  breakdown : Option Breakdown := none
  polls : Nat := 0

/-- Gives out the batches of a script; after the last one nothing happens any more. -/
def InputDevice.script : InputDevice EventScript where
  poll script :=
    match Breakdown.use script.breakdown with
    | .error cause => (.error cause, script)
    | .ok breakdown =>
      (.ok (script.batches.headD []),
        { batches := script.batches.tail, breakdown, polls := script.polls + 1 })

/-- The frames that were drawn, the newest first. -/
structure FrameLog where
  frames : List Screen := []
  breakdown : Option Breakdown := none

def DisplayDevice.log : DisplayDevice FrameLog where
  draw screen log :=
    match Breakdown.use log.breakdown with
    | .error cause => (.error cause, log)
    | .ok breakdown => (.ok (), { frames := screen :: log.frames, breakdown })

/-- A keyboard with what arrives on it before each poll, and when each poll ends. -/
structure TypedInput where
  keyboard : Keyboard
  arrivals : Nat → List (Nat × TerminalEvent)
  closing : Nat → Nat
  polls : Nat := 0

def InputDevice.typed : InputDevice TypedInput where
  poll input :=
    let (events, keyboard) :=
      input.keyboard.poll (input.arrivals input.polls) (input.closing input.polls)
    (.ok events, { input with keyboard, polls := input.polls + 1 })

end ChipEight
