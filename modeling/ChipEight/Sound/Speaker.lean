import ChipEight.Fault

/-!
# Speakers

A device that can beep and stop. Either call may fail, and a device may remember
all that was asked of it, so it is given by what the calls do to its state.
-/

set_option autoImplicit false

namespace ChipEight

/-- A device with states `State`. A call that fails may change the state too. -/
structure Speaker (State : Type) where
  beep : State → Except DeviceFailure Unit × State
  stop : State → Except DeviceFailure Unit × State

inductive SpeakerCall where
  | beep
  | stop
deriving DecidableEq, Repr

namespace SpeakerCall

def name : SpeakerCall → String
  | .beep => "beep"
  | .stop => "stop"

end SpeakerCall

namespace Speaker

/-- The speaker that does nothing, whatever its state. -/
def mute {State : Type} : Speaker State where
  beep state := (.ok (), state)
  stop state := (.ok (), state)

def recorderAnswer (broken : Option SpeakerCall) (call : SpeakerCall) :
    Except DeviceFailure Unit :=
  if broken = some call then .error (.device (call.name ++ " failed")) else .ok ()

/-- Writes down every call, the newest first, and fails the calls of one kind. -/
def recorder (broken : Option SpeakerCall) : Speaker (List SpeakerCall) where
  beep calls := (recorderAnswer broken .beep, .beep :: calls)
  stop calls := (recorderAnswer broken .stop, .stop :: calls)

/-- What a tone generator was set to, and whether it sounds. -/
structure Tone where
  sounding : Bool := false
  /-- The pitches that the generator was set to, in hertz, the newest first. Zero is silence. -/
  pitches : List Nat := []
deriving DecidableEq, Repr

/-- The pitch of a beep in hertz. -/
def beepPitch : Nat := 2093

/-- A tone generator that is set only when it has to change. -/
def toneGenerator : Speaker Tone where
  beep tone :=
    if tone.sounding then (.ok (), tone) else (.ok (), ⟨true, beepPitch :: tone.pitches⟩)
  stop tone :=
    if tone.sounding then (.ok (), ⟨false, 0 :: tone.pitches⟩) else (.ok (), tone)

end Speaker

end ChipEight
