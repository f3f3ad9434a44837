import ChipEight.Sound.Speaker
import ChipEight.Sound.Timer

/-!
# Audio ticks

Sixty times a second the audio side sounds the speaker while the sound timer runs,
counts the timer down, and stops the speaker once nothing is left.
-/

set_option autoImplicit false

namespace ChipEight

/-- One tick of the audio side. A beep that fails ends the tick before the timer is
counted down. -/
def SoundTimer.tick {State : Type} (speaker : Speaker State) (timer : SoundTimer)
    (state : State) : Except DeviceFailure Unit × SoundTimer × State :=
  if timer.value = 0 then
    let (outcome, state) := speaker.stop state
    (outcome, timer, state)
  else
    match speaker.beep state with
    | (.error cause, state) => (.error cause, timer, state)
    | (.ok (), state) =>
      let lowered := timer.decrement
      if lowered.value = 0 then
        let (outcome, state) := speaker.stop state
        (outcome, lowered, state)
      else (.ok (), lowered, state)

end ChipEight
