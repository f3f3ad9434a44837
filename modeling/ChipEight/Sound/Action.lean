import ChipEight.Sound.Tick

/-!
# A tick in single actions

A tick reads the timer, beeps, counts down and stops as separate actions, and the
machine may set the timer between any two of them. Without such a write the actions
together do what `SoundTimer.tick` does.
-/

set_option autoImplicit false

namespace ChipEight

inductive TickPhase where
  | reading
  | beeping
  | lowering
  | stopping
  | finished
deriving DecidableEq, Repr

structure TickState (State : Type) where
  phase : TickPhase := .reading
  timer : SoundTimer
  device : State
  /-- How the last call of this tick went. -/
  outcome : Except DeviceFailure Unit := .ok ()

namespace TickState

variable {State : Type}

/-- The next action of a tick; a finished tick stays as it is. -/
def act (speaker : Speaker State) (tick : TickState State) : TickState State :=
  match tick.phase with
  | .reading =>
    { tick with phase := if tick.timer.value = 0 then .stopping else .beeping }
  | .beeping =>
    match speaker.beep tick.device with
    | (.ok (), device) => { tick with phase := .lowering, device }
    | (.error cause, device) => { tick with phase := .finished, device, outcome := .error cause }
  | .lowering =>
    let lowered := tick.timer.decrement
    { tick with phase := if lowered.value = 0 then .stopping else .finished, timer := lowered }
  | .stopping =>
    let (outcome, device) := speaker.stop tick.device
    { tick with phase := .finished, device, outcome }
  | .finished => tick

/-- A write of the machine to the timer while a tick is under way. -/
def write (value : UInt8) (tick : TickState State) : TickState State :=
  { tick with timer := ⟨value⟩ }

/-- Four actions finish every tick that nobody writes into, with the result of
`SoundTimer.tick`. -/
theorem act_four (speaker : Speaker State) (timer : SoundTimer) (device : State) :
    let last := act speaker (act speaker (act speaker (act speaker { timer, device })))
    last.phase = .finished ∧
      (last.outcome, last.timer, last.device) = timer.tick speaker device := by
  by_cases silent : timer.value = 0
  · simp [act, SoundTimer.tick, silent]
  · rcases sounded : speaker.beep device with ⟨_ | _, after⟩
    · simp [act, SoundTimer.tick, silent, sounded]
    · by_cases last : timer.decrement.value = 0 <;>
        simp [act, SoundTimer.tick, silent, sounded, last]

end TickState

end ChipEight
