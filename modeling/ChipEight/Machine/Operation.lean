import ChipEight.Machine.Keys
import ChipEight.Machine.Load
import ChipEight.Machine.Step

/-!
# Operations on a machine

Everything that can be asked of a machine from outside, as data, so that a history of
a machine is a list of operations.
-/

set_option autoImplicit false

namespace ChipEight

inductive Operation where
  | step (now period : UInt64)
  | press (key : UInt8)
  | release (key : UInt8)
  | load (program : List UInt8)
  | loadFrom (stream : ByteStream)
  /-- The audio side looks at the sound timer. -/
  | readSound
  /-- Someone else who holds the sound timer sets it. -/
  | writeSound (value : UInt8)
  /-- The audio side counts the sound timer down. -/
  | lowerSound

inductive Reply where
  | executed (instruction : Instruction)
  | done
  | level (value : UInt8)
  | refused (fault : Fault)
deriving DecidableEq, Repr

namespace Reply

/-- The reply to an operation without a value. -/
def ofOutcome : Except Fault Unit → Reply
  | .ok () => .done
  | .error fault => .refused fault

def ofStep : Except Fault Instruction → Reply
  | .ok instruction => .executed instruction
  | .error fault => .refused fault

end Reply

namespace Machine

def perform (machine : Machine) : Operation → Reply × Machine
  | .step now period => (machine.step now period).map Reply.ofStep id
  | .press key => (machine.press key).map Reply.ofOutcome id
  | .release key => (machine.release key).map Reply.ofOutcome id
  | .load program => (machine.load program).map Reply.ofOutcome id
  | .loadFrom stream => (machine.loadFrom stream).map Reply.ofOutcome id
  | .readSound => (.level machine.sound.value, machine)
  | .writeSound value => (.done, { machine with sound := ⟨value⟩ })
  | .lowerSound =>
    let lowered := machine.sound.decrement
    (.level lowered.value, { machine with sound := lowered })

/-- Does operations in turn, and gives the reply to each of them. -/
def performAll (machine : Machine) : List Operation → List Reply × Machine
  | [] => ([], machine)
  | operation :: later =>
    let (reply, next) := machine.perform operation
    let (replies, last) := next.performAll later
    (reply :: replies, last)

/-- The machines that operations can lead to from a new one. -/
inductive Reachable : Machine → Prop where
  | new (random : RandomBytes) : Reachable (.new random)
  | perform {machine : Machine} (operation : Operation) :
      Reachable machine → Reachable (machine.perform operation).2

structure Burst where
  succeeded : Nat
  fault : Option Fault
deriving DecidableEq, Repr

/-- As `steps`, after `done` steps that have succeeded. -/
def stepsAfter (done : Nat) (machine : Machine) (now increment period : UInt64) :
    (limit : Nat) → Burst × Machine
  | 0 => (⟨done, none⟩, machine)
  | limit + 1 =>
    match machine.step now period with
    | (.ok _, next) => stepsAfter (done + 1) next (now + increment) increment period limit
    | (.error fault, next) => (⟨done, some fault⟩, next)

/-- Up to `limit` steps, the first at `now` and each `increment` later than the one
before it. The first fault ends them. -/
def steps (machine : Machine) (now increment period : UInt64) (limit : Nat) : Burst × Machine :=
  machine.stepsAfter 0 now increment period limit

end Machine

end ChipEight
