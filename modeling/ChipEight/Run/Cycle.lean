import ChipEight.PadEvent
import ChipEight.Machine.Keys
import ChipEight.Machine.Step
import ChipEight.Run.Pacing

/-!
# Cycles

One cycle of a run: the events of the host go to the machine, the machine makes a
step unless it awaits a key press, and a frame may fall due.
-/

set_option autoImplicit false

namespace ChipEight

namespace Machine

/-- Hands events to the machine in turn. The first quit ends that with `false`, and the
first key out of range with its fault; the events after it are dropped. -/
def deliver (machine : Machine) : List PadEvent → Except Fault Bool × Machine
  | [] => (.ok true, machine)
  | .quit :: _ => (.ok false, machine)
  | .press key :: later =>
    match machine.press key with
    | (.ok (), next) => next.deliver later
    | (.error fault, next) => (.error fault, next)
  | .release key :: later =>
    match machine.release key with
    | (.ok (), next) => next.deliver later
    | (.error fault, next) => (.error fault, next)

/-- A step of a running machine; a machine that awaits a key press stays as it is. -/
def stepUnlessAwaiting (machine : Machine) (now : Nat) : Except Fault Unit × Machine :=
  match machine.awaiting with
  | some _ => (.ok (), machine)
  | none =>
    match machine.step (UInt64.ofNat now) delayPeriod with
    | (.ok _, next) => (.ok (), next)
    | (.error fault, next) => (.error fault, next)

end Machine

structure Run where
  machine : Machine
  cycles : Nat := 0
  frameDueAt : Nat := 0

inductive CycleOutcome where
  /-- The run ended, with its count of cycles or with a failure. -/
  | ended (outcome : Except RunFailure Nat)
  /-- The cycle is done, and a frame is due or not. -/
  | completed (frameDue : Bool)

namespace Run

/-- What follows the delivery of events in a cycle that goes on. -/
def stepAndCount (pacing : Pacing) (reading : Reading) (run : Run) : CycleOutcome × Run :=
  match run.machine.stepUnlessAwaiting reading.stepTime with
  | (.error fault, machine) => (.ended (.error (.machine fault)), { run with machine })
  | (.ok (), machine) =>
    let counted := { run with machine, cycles := run.cycles + 1 }
    if run.frameDueAt ≤ reading.startTime then
      (.completed true, { counted with frameDueAt := run.frameDueAt + pacing.framePeriod })
    else (.completed false, counted)

/-- One cycle, with what polling the input has given. -/
def cycle (pacing : Pacing) (polled : Except DeviceFailure (List PadEvent))
    (reading : Reading) (run : Run) : CycleOutcome × Run :=
  match polled with
  | .error cause => (.ended (.error (.device cause)), run)
  | .ok events =>
    match run.machine.deliver events with
    | (.error fault, machine) => (.ended (.error (.machine fault)), { run with machine })
    | (.ok false, machine) => (.ended (.ok run.cycles), { run with machine })
    | (.ok true, machine) => stepAndCount pacing reading { run with machine }

end Run

end ChipEight
