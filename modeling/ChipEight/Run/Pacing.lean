import ChipEight.Fault

/-!
# Pacing

How fast a run goes and when it stops by itself, and what can end a run early. Times
are nanoseconds since the start of the run.
-/

set_option autoImplicit false

namespace ChipEight

inductive RunFailure where
  | machine (fault : Fault)
  | device (cause : DeviceFailure)
  | configuration (detail : String)
deriving DecidableEq, Repr

namespace RunFailure

def message : RunFailure → String
  | .machine fault => fault.message
  | .device cause => "device I/O failed: " ++ cause.message
  | .configuration detail => "invalid configuration: " ++ detail

/-- The failure with its data, as shown when a command ends with it. -/
def report : RunFailure → String
  | .machine fault => "Machine(" ++ fault.report ++ ")"
  | .device cause => "Io(" ++ cause.report ++ ")"
  | .configuration detail => s!"Config(\"{detail}\")"

end RunFailure

def second : Nat := 1000000000

/-- A sixtieth of a second, the period of the delay timer. -/
def delayPeriod : UInt64 := UInt64.ofNat (second / 60)

structure Pacing where
  cycleRate : UInt32 := 700
  frameRate : UInt32 := 60
  cycleLimit : Option UInt64 := none
deriving DecidableEq, Repr

namespace Pacing

def check (pacing : Pacing) : Except RunFailure Unit :=
  if pacing.cycleRate = 0 ∨ pacing.frameRate = 0 then
    .error (.configuration "cycle and frame rates must be non-zero")
  else .ok ()

def cyclePeriod (pacing : Pacing) : Nat := second / pacing.cycleRate.toNat

def framePeriod (pacing : Pacing) : Nat := second / pacing.frameRate.toNat

def spent (pacing : Pacing) (cycles : Nat) : Bool :=
  match pacing.cycleLimit with
  | none => false
  | some limit => decide (limit.toNat ≤ cycles)

end Pacing

structure Reading where
  startTime : Nat
  stepTime : Nat
deriving DecidableEq, Repr

/-- What the clock shows in each cycle of a run, the first cycle being cycle zero. -/
abbrev Clock := Nat → Reading

/-- The clock of a host that does all its work in no time: it goes on by the cycle
period, and by one nanosecond where that is shorter. -/
def Pacing.idealClock (pacing : Pacing) : Clock := fun cycle =>
  let time := cycle * max 1 pacing.cyclePeriod
  ⟨time, time⟩

end ChipEight
