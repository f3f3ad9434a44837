import ChipEight.Proofs.Run.Driver
import ChipEight.Proofs.Run.Loop

/-!
# Recorded frames

A display can be made to keep all frames that it is given. A run does not notice that, and when the
display never fails, the frames of a run are told turn by turn: one after each cycle that finds a
frame due, and one on the way out.
-/

set_option autoImplicit false

namespace ChipEight

/-! ## Displays that keep their frames -/

namespace DisplayDevice

variable {Displays : Type}

end DisplayDevice

namespace Session

variable {Inputs Displays : Type}

def frames (session : Session Inputs (Displays × List Screen)) : List Screen :=
  session.display.2

variable (input : InputDevice Inputs) (display : DisplayDevice Displays) (pacing : Pacing)
  (clock : Clock)

end Session

/-! ## The frames of a turn -/

namespace Session

variable {Inputs Displays : Type}

/-- A turn of the loop that goes on: the cycle is counted, and if a frame was due when it started,
the screen that the cycle has left is shown. -/
structure GoesOn (display : DisplayDevice Displays) (pacing : Pacing) (clock : Clock)
    (before after : Session Inputs (Displays × List Screen)) : Prop where
  unspent : pacing.spent before.run.cycles = false
  cycles : after.run.cycles = before.run.cycles + 1
  frames : after.frames = before.frames ++
    if before.run.frameDueAt ≤ (clock before.run.cycles).startTime
    then [after.run.machine.screen] else []
  frameDueAt : after.run.frameDueAt = before.run.frameDueAt +
    if before.run.frameDueAt ≤ (clock before.run.cycles).startTime then pacing.framePeriod else 0
  steady : display.NeverFails after.display.1

variable (input : InputDevice Inputs) {display : DisplayDevice Displays} (pacing : Pacing)
  (clock : Clock)

end Session

end ChipEight
