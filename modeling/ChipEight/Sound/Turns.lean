import ChipEight.Sound.Action

/-!
# Ticks among writes

The audio side takes one tick after the other, action by action, and the machine may write
to the timer between any two actions. What each tick has done is kept, oldest first.
-/

set_option autoImplicit false

namespace ChipEight

inductive TickEvent where
  /-- It finds this value in the timer. -/
  | read (value : UInt8)
  | call (asked : SpeakerCall)
  /-- It counts the timer down from the one value to the other. -/
  | lower (found left : UInt8)
deriving DecidableEq, Repr

namespace TickEvent

def call? : TickEvent → Option SpeakerCall
  | .call asked => some asked
  | .read _ | .lower _ _ => none

/-- The timer holds less than before. -/
def lowers : TickEvent → Bool
  | .lower found _ => found ≠ 0
  | .read _ | .call _ => false

end TickEvent

/-- What the next action of a tick does; a finished tick does nothing more. -/
def TickState.event? {State : Type} (tick : TickState State) : Option TickEvent :=
  match tick.phase with
  | .reading => some (.read tick.timer.value)
  | .beeping => some (.call .beep)
  | .lowering => some (.lower tick.timer.value tick.timer.decrement.value)
  | .stopping => some (.call .stop)
  | .finished => none

/-- The next action of the audio side, or a write of the machine. -/
inductive Turn where
  | act
  | write (value : UInt8)
deriving DecidableEq, Repr

/-- The audio side with the ticks that it has taken. -/
structure AudioSide (State : Type) where
  /-- The tick under way; between two ticks the next one, which has not read the timer yet. -/
  tick : TickState State
  doing : List TickEvent := []
  finished : List (List TickEvent) := []

namespace AudioSide

variable {State : Type}

def start (timer : SoundTimer) (device : State) : AudioSide State :=
  { tick := { timer, device } }

/-- One action of the tick under way. Once that tick is finished the next one is ready. -/
def act (speaker : Speaker State) (side : AudioSide State) : AudioSide State :=
  let doing := side.doing ++ side.tick.event?.toList
  let next := side.tick.act speaker
  if next.phase = .finished then
    { tick := { timer := next.timer, device := next.device }
      finished := side.finished ++ [doing] }
  else { side with tick := next, doing }

def take (speaker : Speaker State) (side : AudioSide State) : Turn → AudioSide State
  | .act => side.act speaker
  | .write value => { side with tick := side.tick.write value }

def play (speaker : Speaker State) (side : AudioSide State) (turns : List Turn) :
    AudioSide State :=
  turns.foldl (take speaker) side

def events (side : AudioSide State) : List TickEvent :=
  side.finished.flatten ++ side.doing

def calls (side : AudioSide State) : List SpeakerCall :=
  side.events.filterMap TickEvent.call?

/-- How many ticks have lowered the timer so far, the one under way included. -/
def lowerings (side : AudioSide State) : Nat :=
  (side.finished ++ [side.doing]).countP fun events => events.any TickEvent.lowers

def level (side : AudioSide State) : Nat := side.tick.timer.value.toNat

end AudioSide

end ChipEight
