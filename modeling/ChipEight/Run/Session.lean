import ChipEight.Run.Cycle
import ChipEight.Run.Device

/-!
# Sessions

A run with its devices, from the first cycle to the frame that is drawn on the way
out. A run without a limit may go on for ever, so the loop is given the number of
cycles after which it is no longer followed.
-/

set_option autoImplicit false

namespace ChipEight

structure Session (Inputs Displays : Type) where
  run : Run
  input : Inputs
  display : Displays

namespace Session

variable {Inputs Displays : Type}

def draw (device : DisplayDevice Displays) (session : Session Inputs Displays) :
    Except DeviceFailure Unit × Session Inputs Displays :=
  let (outcome, display) := device.draw session.run.machine.screen session.display
  (outcome, { session with display })

/-- Runs cycle after cycle until the run ends, and then gives its outcome; `none` if it
goes on after so many cycles. The limit is looked at before the input is polled. -/
def loop (input : InputDevice Inputs) (display : DisplayDevice Displays) (pacing : Pacing)
    (clock : Clock) : Nat → Session Inputs Displays →
    Option (Except RunFailure Nat) × Session Inputs Displays
  | 0, session => (none, session)
  | more + 1, session =>
    if pacing.spent session.run.cycles then (some (.ok session.run.cycles), session)
    else
      let (polled, inputs) := input.poll session.input
      match session.run.cycle pacing polled (clock session.run.cycles) with
      | (.ended outcome, run) => (some outcome, { session with run, input := inputs })
      | (.completed false, run) =>
        loop input display pacing clock more { session with run, input := inputs }
      | (.completed true, run) =>
        match draw display { session with run, input := inputs } with
        | (.error cause, session) => (some (.error (.device cause)), session)
        | (.ok (), session) => loop input display pacing clock more session

/-- Runs to the end and draws the last frame. If that cannot be drawn, this is the
outcome, whatever ended the run. -/
def runFor (input : InputDevice Inputs) (display : DisplayDevice Displays) (pacing : Pacing)
    (clock : Clock) (most : Nat) (session : Session Inputs Displays) :
    Option (Except RunFailure Nat) × Session Inputs Displays :=
  match session.loop input display pacing clock most with
  | (none, session) => (none, session)
  | (some outcome, session) =>
    match session.draw display with
    | (.error cause, session) => (some (.error (.device cause)), session)
    | (.ok (), session) => (some outcome, session)

/-- The cycles to follow a run for: one more than its limit, so that the limit is seen. -/
def followed (pacing : Pacing) : Nat :=
  match pacing.cycleLimit with
  | some limit => limit.toNat + 1
  | none => 18446744073709551616

/-- A run of a machine from its first cycle on, with the machine and the devices as they
are afterwards. -/
def start (input : InputDevice Inputs) (display : DisplayDevice Displays) (pacing : Pacing)
    (clock : Clock) (machine : Machine) (inputs : Inputs) (displays : Displays) :
    Option (Except RunFailure Nat) × Session Inputs Displays :=
  runFor input display pacing clock (followed pacing)
    { run := { machine }, input := inputs, display := displays }

end Session

end ChipEight
