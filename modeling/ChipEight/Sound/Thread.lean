import ChipEight.Sound.Action
import ChipEight.Sound.Playback

/-!
# Playback beside the machine

Playback ticks action by action, with writes of the machine between any two of them, until it
is closed. Whether it is closed it looks between two ticks only, and then its last action is
to stop the speaker that it still has.
-/

set_option autoImplicit false

namespace ChipEight

inductive PlaybackStage where
  /-- Between two ticks. -/
  | pausing
  | ticking
  | ended
deriving DecidableEq, Repr

/-- The next action of playback, a write of the machine to the timer, or the request to end. -/
inductive PlaybackTurn where
  | act
  | write (value : UInt8)
  | close
deriving DecidableEq, Repr

structure PlaybackThread (State : Type) where
  stage : PlaybackStage := .pausing
  /-- The tick under way; between two ticks the next one. -/
  tick : TickState State
  /-- The speaker has failed, and silence has taken its place. -/
  muted : Bool := false
  closed : Bool := false

namespace PlaybackThread

variable {State : Type}

def start (timer : SoundTimer) (device : State) : PlaybackThread State :=
  { tick := { timer, device } }

def current (speaker : Speaker State) (thread : PlaybackThread State) : Speaker State :=
  if thread.muted then .mute else speaker

/-- One action. A tick that ends with a failed call lets go of the speaker. -/
def act (speaker : Speaker State) (thread : PlaybackThread State) : PlaybackThread State :=
  match thread.stage with
  | .pausing =>
    if thread.closed then
      let (_, device) := (thread.current speaker).stop thread.tick.device
      { thread with stage := .ended, tick := { thread.tick with device } }
    else { thread with stage := .ticking }
  | .ticking =>
    let next := thread.tick.act (thread.current speaker)
    if next.phase = .finished then
      { thread with
        stage := .pausing
        tick := { timer := next.timer, device := next.device }
        muted := thread.muted || !next.outcome.isOk }
    else { thread with tick := next }
  | .ended => thread

def take (speaker : Speaker State) (thread : PlaybackThread State) :
    PlaybackTurn → PlaybackThread State
  | .act => thread.act speaker
  | .write value => { thread with tick := thread.tick.write value }
  | .close => { thread with closed := true }

def play (speaker : Speaker State) (thread : PlaybackThread State) (turns : List PlaybackTurn) :
    PlaybackThread State :=
  turns.foldl (take speaker) thread

end PlaybackThread

end ChipEight
