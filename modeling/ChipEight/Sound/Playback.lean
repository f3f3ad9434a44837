import ChipEight.Sound.Tick

/-!
# Playback

Ticks a speaker until playback ends. At the first call that fails playback lets go of
the speaker and goes on in silence; at the end it stops the speaker that it still has.
-/

set_option autoImplicit false

namespace ChipEight

structure Playback (State : Type) where
  timer : SoundTimer
  /-- The state of the speaker that playback was started with. -/
  device : State
  /-- The speaker has failed, and silence has taken its place. -/
  muted : Bool := false

namespace Playback

variable {State : Type}

/-- The speaker that playback calls now. -/
def current (speaker : Speaker State) (playback : Playback State) : Speaker State :=
  if playback.muted then .mute else speaker

/-- One tick, after which a speaker that failed is let go of. -/
def cycle (speaker : Speaker State) (playback : Playback State) : Playback State :=
  match playback.timer.tick (playback.current speaker) playback.device with
  | (.ok (), timer, device) => { playback with timer, device }
  | (.error _, timer, device) => { timer, device, muted := true }

def run (speaker : Speaker State) (playback : Playback State) :
    (ticks : Nat) → Playback State
  | 0 => playback
  | ticks + 1 => run speaker (playback.cycle speaker) ticks

/-- Ticks until the timer has run down. One tick more than the timer holds is enough
for every speaker, since only the tick of the first failed beep leaves the timer alone. -/
def runDown (speaker : Speaker State) (playback : Playback State) : Playback State :=
  playback.run speaker (playback.timer.value.toNat + 1)

/-- The state of the speaker once playback has ended. Whether the last stop succeeds
makes no difference. -/
def finish (speaker : Speaker State) (playback : Playback State) : State :=
  ((playback.current speaker).stop playback.device).2

end Playback

end ChipEight
