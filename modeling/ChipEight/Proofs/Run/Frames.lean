import ChipEight.Machine.Load
import ChipEight.Proofs.Run.Recording
import Mathlib.Order.Bounds.Basic

/-!
# Frame pacing

A frame falls due a period after the one before it was due, whenever that one was shown. So what a
stall has held up is shown afterwards, one frame a cycle, until the frames have caught up with the
clock. Their count is given by a recurrence on the clock readings, and in closed form by the cycle
that has last let them wait.
-/

set_option autoImplicit false

namespace ChipEight

variable {pacing : Pacing} {clock : Clock}

/-! ## The count of frames -/

/-- How many frames are shown in the cycles of this number: one a cycle at most, and none before
its time. -/
def frameCount (pacing : Pacing) (clock : Clock) : Nat → Nat
  | 0 => 0
  | cycles + 1 =>
    min (frameCount pacing clock cycles + 1) ((clock cycles).startTime / pacing.framePeriod + 1)

/-- As readings do not go back, a cycle shows a frame exactly when one is due. -/
theorem frameCount_succ (positive : 0 < pacing.framePeriod)
    (forward : ∀ cycle, (clock cycle).startTime ≤ (clock (cycle + 1)).startTime) (cycles : Nat) :
    frameCount pacing clock (cycles + 1) = frameCount pacing clock cycles +
      if frameCount pacing clock cycles * pacing.framePeriod ≤ (clock cycles).startTime
      then 1 else 0 := by
  have dueIff : frameCount pacing clock cycles ≤ (clock cycles).startTime / pacing.framePeriod ↔
      frameCount pacing clock cycles * pacing.framePeriod ≤ (clock cycles).startTime :=
    Nat.le_div_iff_mul_le positive
  -- No frame has been shown before its time, and by now it is no earlier.
  have shown : frameCount pacing clock cycles ≤
      (clock cycles).startTime / pacing.framePeriod + 1 := by
    cases cycles with
    | zero => exact Nat.zero_le _
    | succ earlier =>
        calc
          frameCount pacing clock (earlier + 1)
          _ ≤ (clock earlier).startTime / pacing.framePeriod + 1 := Nat.min_le_right _ _
          _ ≤ (clock (earlier + 1)).startTime / pacing.framePeriod + 1 :=
              Nat.succ_le_succ (Nat.div_le_div_right (forward earlier))
  rw [frameCount]
  by_cases due : frameCount pacing clock cycles * pacing.framePeriod ≤ (clock cycles).startTime
  · rw [if_pos due, Nat.min_eq_left (Nat.succ_le_succ (dueIff.mpr due))]
  · rw [if_neg due]
    have ahead := mt dueIff.mp due
    omega

namespace Session

variable {Inputs Displays : Type} {input : InputDevice Inputs} {display : DisplayDevice Displays}

/-! ## The frames of a loop -/

/-- A session after so many cycles, with all frames shown that fell due in them. -/
structure Paced (display : DisplayDevice Displays) (pacing : Pacing) (clock : Clock) (done : Nat)
    (session : Session Inputs (Displays × List Screen)) : Prop where
  cycles : session.run.cycles = done
  count : session.frames.length = frameCount pacing clock done
  frameDueAt : session.run.frameDueAt = frameCount pacing clock done * pacing.framePeriod
  steady : display.NeverFails session.display.1

theorem Paced.due_iff {cycles : Nat} {session : Session Inputs (Displays × List Screen)}
    (paced : Paced display pacing clock cycles session) :
    session.run.frameDueAt ≤ (clock session.run.cycles).startTime ↔
      frameCount pacing clock cycles * pacing.framePeriod ≤ (clock cycles).startTime := by
  rw [paced.cycles, paced.frameDueAt]

theorem Paced.goesOn (positive : 0 < pacing.framePeriod)
    (forward : ∀ cycle, (clock cycle).startTime ≤ (clock (cycle + 1)).startTime) {cycles : Nat}
    {before after : Session Inputs (Displays × List Screen)}
    (paced : Paced display pacing clock cycles before)
    (going : GoesOn display pacing clock before after) :
    Paced display pacing clock (cycles + 1) after := by
  obtain ⟨-, cycled, frames, frameDueAt, steady⟩ := going
  have counted := frameCount_succ positive forward cycles
  by_cases due : frameCount pacing clock cycles * pacing.framePeriod ≤ (clock cycles).startTime
  · rw [if_pos due] at counted
    rw [if_pos (paced.due_iff.mpr due)] at frames frameDueAt
    refine ⟨by rw [cycled, paced.cycles], ?_, ?_, steady⟩
    · rw [frames, List.length_append, paced.count, counted, List.length_singleton]
    · rw [frameDueAt, paced.frameDueAt, counted, Nat.succ_mul]
  · rw [if_neg due] at counted
    rw [if_neg (mt paced.due_iff.mp due)] at frames frameDueAt
    refine ⟨by rw [cycled, paced.cycles], ?_, ?_, steady⟩
    · rw [frames, List.append_nil, paced.count, counted, Nat.add_zero]
    · rw [frameDueAt, paced.frameDueAt, counted, Nat.add_zero, Nat.add_zero]

end Session

end ChipEight
