import ChipEight.Run.Session

/-!
# The steps of a run

Which steps a run makes, each with the machine that it finds and the time that it is told.
-/

set_option autoImplicit false

namespace ChipEight

/-- A step that a run makes, with the machine as it was before it. -/
structure Stride where
  machine : Machine
  time : UInt64
  running : machine.awaiting = none

namespace Stride

def after (stride : Stride) : Machine :=
  (stride.machine.step stride.time delayPeriod).2

end Stride

namespace Session

variable {Inputs Displays : Type}

/-- The step that the next cycle of a run comes to, if it comes to one. -/
def stride? (input : InputDevice Inputs) (pacing : Pacing) (clock : Clock)
    (session : Session Inputs Displays) : Option Stride :=
  if pacing.spent session.run.cycles then none
  else
    match (input.poll session.input).1 with
    | .error _ => none
    | .ok events =>
      match session.run.machine.deliver events with
      | (.ok true, machine) =>
        if running : machine.awaiting = none then
          some ⟨machine, UInt64.ofNat (clock session.run.cycles).stepTime, running⟩
        else none
      | _ => none

variable (input : InputDevice Inputs) (display : DisplayDevice Displays) (pacing : Pacing)
  (clock : Clock)

/-- The step of a run in its cycle of this number, the first being cycle zero. -/
def strideIn? (session : Session Inputs Displays) (cycle : Nat) : Option Stride :=
  match session.loop input display pacing clock cycle with
  | (none, reached) => reached.stride? input pacing clock
  | (some _, _) => none

def strides (session : Session Inputs Displays) (cycles : Nat) : List Stride :=
  (List.range cycles).filterMap (session.strideIn? input display pacing clock)

variable {input display pacing clock} in
theorem mem_strides {session : Session Inputs Displays} {cycle cycles : Nat} {stride : Stride}
    (within : cycle < cycles)
    (made : session.strideIn? input display pacing clock cycle = some stride) :
    stride ∈ session.strides input display pacing clock cycles :=
  List.mem_filterMap.mpr ⟨cycle, List.mem_range.mpr within, made⟩

theorem strides_succ (session : Session Inputs Displays) (cycles : Nat) :
    session.strides input display pacing clock (cycles + 1) =
      session.strides input display pacing clock cycles ++
        (session.strideIn? input display pacing clock cycles).toList := by
  rw [strides, List.range_succ, List.filterMap_append]
  cases made : session.strideIn? input display pacing clock cycles with
  | none => simp [strides, made]
  | some stride => simp [strides, made]

end Session

end ChipEight
