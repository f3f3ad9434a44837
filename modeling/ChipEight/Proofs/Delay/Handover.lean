import ChipEight.Proofs.Delay.Bookkeeping
import ChipEight.Proofs.Run.Delivery
import ChipEight.Proofs.Run.Loop
import ChipEight.Proofs.Run.Strides

/-!
# The delay timer from one run to the next

The machine keeps the time of its last tick when it is handed to another run, but that run
counts time from zero again. Until the new clock is more than a period past the old tick,
the timer stands still.
-/

set_option autoImplicit false

namespace ChipEight

/-! ## Steps and the last tick -/

namespace Stride

/-- The step begins by taking one from a delay timer that runs. -/
def CountsDown (stride : Stride) : Prop :=
  stride.machine.delay ≠ 0 ∧
    (stride.machine.keepTime stride.time delayPeriod).delay = stride.machine.delay - 1

instance (stride : Stride) : Decidable stride.CountsDown :=
  inferInstanceAs (Decidable (_ ∧ _))

def sets (stride : Stride) : Bool :=
  match (stride.machine.step stride.time delayPeriod).1 with
  | .ok (.setDelay _) => true
  | _ => false

/-- The step leaves its time behind as the last tick. -/
def marks (stride : Stride) : Bool :=
  stride.CountsDown ∨ stride.sets

theorem countsDown_iff_due (stride : Stride) :
    stride.CountsDown ↔ stride.machine.DelayDue stride.time delayPeriod := by
  constructor
  · rintro ⟨running, counted⟩
    by_cases due : stride.machine.DelayDue stride.time delayPeriod
    · exact due
    · rw [Machine.keepTime_of_not_due due] at counted
      have same : stride.machine.delay = stride.machine.delay - 1 := counted
      have less := toNat_sub_one running
      have positive : stride.machine.delay.toNat ≠ 0 := fun zero =>
        running (UInt8.toNat_inj.mp zero)
      rw [← same] at less
      omega
  · intro due
    refine ⟨due.1, ?_⟩
    rw [Machine.keepTime_of_due due]

theorem sets_iff (stride : Stride) :
    stride.sets = true ↔
      ∃ x, (stride.machine.step stride.time delayPeriod).1 = .ok (.setDelay x) := by
  unfold sets
  constructor
  · intro stored
    split at stored
    case h_1 x answered => exact ⟨x, answered⟩
    case h_2 => cases stored
  · rintro ⟨x, answered⟩
    rw [answered]

/-- A marked step leaves its own time as the last tick, and any other step the tick that
it found. -/
theorem delaySince_after (stride : Stride) :
    stride.after.delaySince =
      if stride.marks then stride.time else stride.machine.delaySince := by
  by_cases stored : stride.sets = true
  · obtain ⟨x, answered⟩ := stride.sets_iff.mp stored
    have marked : stride.marks = true := decide_eq_true (.inr stored)
    rw [if_pos marked]
    exact congrArg DelayTimer.since (Machine.delayTimer_step_of_setDelay answered)
  · have other : ∀ x, (stride.machine.step stride.time delayPeriod).1 ≠ .ok (.setDelay x) :=
      fun x answered => stored (stride.sets_iff.mpr ⟨x, answered⟩)
    have kept : stride.after.delaySince =
        (stride.machine.keepTime stride.time delayPeriod).delaySince :=
      congrArg DelayTimer.since (Machine.delayTimer_step stride.running other)
    by_cases due : stride.machine.DelayDue stride.time delayPeriod
    · have marked : stride.marks = true :=
        decide_eq_true (.inl (stride.countsDown_iff_due.mpr due))
      rw [if_pos marked, kept, Machine.keepTime_of_due due]
    · have unmarked : ¬ stride.marks = true := fun marked =>
        (of_decide_eq_true marked).elim (fun counted => due (stride.countsDown_iff_due.mp counted))
          stored
      rw [if_neg unmarked, kept, Machine.keepTime_of_not_due due]

end Stride

/-- The tick that steps leave behind, after the tick that they find. -/
def lastTick (tick : UInt64) (strides : List Stride) : UInt64 :=
  strides.foldl (fun tick stride => if stride.marks then stride.time else tick) tick

theorem lastTick_append (tick : UInt64) (earlier later : List Stride) :
    lastTick tick (earlier ++ later) = lastTick (lastTick tick earlier) later :=
  List.foldl_append

theorem lastTick_of_unmarked {tick : UInt64} {strides : List Stride}
    (unmarked : ∀ stride ∈ strides, stride.marks = false) : lastTick tick strides = tick := by
  induction strides with
  | nil => rfl
  | cons stride later ih =>
      rw [lastTick, List.foldl_cons, unmarked stride List.mem_cons_self]
      exact ih fun other among => unmarked other (List.mem_cons_of_mem _ among)

namespace Machine

theorem delaySince_deliver (machine : Machine) (events : List PadEvent) :
    (machine.deliver events).2.delaySince = machine.delaySince := by
  rw [deliver_eq]
  induction events.takeWhile PadEvent.concernsKey generalizing machine with
  | nil => rfl
  | cons event later ih =>
      rw [List.foldl_cons, ih]
      cases event with
      | quit => rfl
      | press key => exact congrArg DelayTimer.since (machine.delayTimer_press key)
      | release key => exact congrArg DelayTimer.since (machine.delayTimer_release key)

end Machine

namespace Session

variable {Inputs Displays : Type}

variable (input : InputDevice Inputs) (display : DisplayDevice Displays) (pacing : Pacing)
  (clock : Clock)

/-- A cycle with a step leaves the machine of that step, and finds the tick that the cycle
found; a cycle without one leaves the tick alone. -/
theorem loop_one_stride? (session : Session Inputs Displays) :
    match session.stride? input pacing clock with
    | none =>
      (session.loop input display pacing clock 1).2.run.machine.delaySince =
        session.run.machine.delaySince
    | some stride =>
      stride.machine.delaySince = session.run.machine.delaySince ∧
        (session.loop input display pacing clock 1).2.run.machine = stride.after := by
  rw [run_loop_one, stride?]
  cases pacing.spent session.run.cycles with
  | true => rfl
  | false =>
      cases (input.poll session.input).1 with
      | error cause => rfl
      | ok events =>
          have kept := Machine.delaySince_deliver session.run.machine events
          simp only [Run.cycle]
          rcases delivered : session.run.machine.deliver events with ⟨outcome, machine⟩
          rw [delivered] at kept
          cases outcome with
          | error fault => exact kept
          | ok goesOn =>
              cases goesOn with
              | false => exact kept
              | true =>
                  dsimp only at kept ⊢
                  by_cases running : machine.awaiting = none
                  · rw [dif_pos running]
                    refine ⟨kept, (Run.machine_stepAndCount _ _ _).trans ?_⟩
                    exact Machine.stepUnlessAwaiting_of_running running _
                  · rw [dif_neg running]
                    have stayed := Machine.stepUnlessAwaiting_of_waiting running
                      (clock session.run.cycles).stepTime
                    have same := Run.machine_stepAndCount pacing (clock session.run.cycles)
                      { session.run with machine }
                    rw [stayed] at same
                    exact (congrArg Machine.delaySince same).trans kept

/-- The last tick after a run is that of the last marked step, or the one it began with. -/
theorem delaySince_loop (most : Nat) (session : Session Inputs Displays) :
    (session.loop input display pacing clock most).2.run.machine.delaySince =
      lastTick session.run.machine.delaySince
        (session.strides input display pacing clock most) := by
  induction most with
  | zero => rfl
  | succ more ih =>
      rw [strides_succ, lastTick_append, ← ih, loop_succ_last, strideIn?]
      rcases session.loop input display pacing clock more with ⟨outcome, reached⟩
      cases outcome with
      | some outcome => rfl
      | none =>
          have turn := loop_one_stride? input display pacing clock reached
          dsimp only
          cases made : reached.stride? input pacing clock with
          | none =>
              rw [made] at turn
              exact turn
          | some stride =>
              rw [made] at turn
              obtain ⟨found, left⟩ := turn
              rw [left, stride.delaySince_after, found]
              rfl

end Session

/-! ## Runs one after another -/

/-- All that goes into a run but the machine. -/
structure Stint where
  {Inputs Displays : Type}
  input : InputDevice Inputs
  display : DisplayDevice Displays
  pacing : Pacing
  clock : Clock
  inputs : Inputs
  displays : Displays

namespace Stint

def session (stint : Stint) (machine : Machine) : Session stint.Inputs stint.Displays where
  run := { machine }
  input := stint.inputs
  display := stint.displays

def machineAfter (stint : Stint) (machine : Machine) : Machine :=
  (Session.start stint.input stint.display stint.pacing stint.clock machine stint.inputs
    stint.displays).2.run.machine

def strideIn? (stint : Stint) (machine : Machine) (cycle : Nat) : Option Stride :=
  (stint.session machine).strideIn? stint.input stint.display stint.pacing stint.clock cycle

def strides (stint : Stint) (machine : Machine) (cycles : Nat) : List Stride :=
  (stint.session machine).strides stint.input stint.display stint.pacing stint.clock cycles

theorem delaySince_machineAfter (stint : Stint) (machine : Machine) :
    (stint.machineAfter machine).delaySince =
      lastTick machine.delaySince (stint.strides machine (Session.followed stint.pacing)) := by
  have looped := Session.delaySince_loop stint.input stint.display stint.pacing stint.clock
    (Session.followed stint.pacing) (stint.session machine)
  rw [machineAfter, Session.start, Session.run_runFor]
  exact looped

end Stint

/-- The machine after runs one after another, each on the machine that the last one left. -/
def handOver (machine : Machine) (stints : List Stint) : Machine :=
  stints.foldl (fun machine stint => stint.machineAfter machine) machine

def history : Machine → List Stint → List Stride
  | _, [] => []
  | machine, stint :: later =>
    stint.strides machine (Session.followed stint.pacing) ++
      history (stint.machineAfter machine) later

theorem delaySince_handOver (machine : Machine) (stints : List Stint) :
    (handOver machine stints).delaySince =
      lastTick machine.delaySince (history machine stints) := by
  induction stints generalizing machine with
  | nil => rfl
  | cons stint later ih =>
      rw [history, lastTick_append, ← stint.delaySince_machineAfter]
      exact ih (stint.machineAfter machine)

/-- The first steps of a run count the delay timer down when their time, in the clock of
that run, is more than a period past the last tick, in the clock of whatever run left it. -/
theorem countsDown_iff_past_lastTick {machine : Machine} {earlier : List Stint} {stint : Stint}
    {cycle : Nat} {stride : Stride}
    (made : stint.strideIn? (handOver machine earlier) cycle = some stride)
    (unmarked : ∀ before ∈ stint.strides (handOver machine earlier) cycle,
      before.marks = false)
    (running : stride.machine.delay ≠ 0) :
    stride.CountsDown ↔
      (lastTick machine.delaySince (history machine earlier)).toNat + 16666666 <
        stride.time.toNat := by
  have found : stride.machine.delaySince =
      lastTick machine.delaySince (history machine earlier) := by
    rw [← delaySince_handOver]
    unfold Stint.strideIn? Session.strideIn? at made
    have looped := (Session.delaySince_loop stint.input stint.display stint.pacing stint.clock
      cycle (stint.session (handOver machine earlier))).trans (lastTick_of_unmarked unmarked)
    split at made
    case h_1 reached going =>
        have turn := Session.loop_one_stride? stint.input stint.display stint.pacing stint.clock
          reached
        rw [made] at turn
        rw [going] at looped
        exact turn.1.trans looped
    case h_2 => cases made
  rw [stride.countsDown_iff_due, Machine.DelayDue, found]
  exact and_iff_right running

/-! ## A frozen timer -/

/-- The clock of a run starts at zero and never goes back. -/
structure Clock.FromZero (clock : Clock) : Prop where
  first : (clock 0).startTime = 0
  within : ∀ cycle, (clock cycle).startTime ≤ (clock cycle).stepTime
  between : ∀ cycle, (clock cycle).stepTime ≤ (clock (cycle + 1)).startTime

theorem idealClock_fromZero (pacing : Pacing) : Clock.FromZero pacing.idealClock where
  first := Nat.zero_mul _
  within := fun _ => Nat.le_refl _
  between := fun cycle => Nat.mul_le_mul_right _ (Nat.le_succ cycle)

def slowStint (limit : UInt64) : Stint where
  input := .script
  display := .log
  pacing := { cycleRate := 10, cycleLimit := some limit }
  clock := Pacing.idealClock { cycleRate := 10 }
  inputs := { batches := [] }
  displays := {}

/-- Sets its delay timer to 255 with its second instruction, and then jumps in place. -/
def countingMachine : Machine :=
  ((Machine.new (.counter 0 1)).load [0x60, 0xff, 0xf0, 0x15, 0x12, 0x04]).2

theorem countsDown_iff_past_lastTick_slow :
    ∃ stride, (slowStint 3).strideIn? (handOver countingMachine [slowStint 2]) 2 = some stride ∧
      (∀ before ∈ (slowStint 3).strides (handOver countingMachine [slowStint 2]) 2,
        before.marks = false) ∧
      stride.machine.delay ≠ 0 ∧ stride.CountsDown := by
  have seen : ((slowStint 3).strideIn? (handOver countingMachine [slowStint 2]) 2).map
      (fun stride => (stride.time, stride.machine.delay)) = some (200000000, 255) := by
    decide +kernel
  obtain ⟨stride, made, known⟩ := Option.map_eq_some_iff.mp seen
  obtain ⟨time, delay⟩ := Prod.mk.inj known
  have unmarked : ∀ before ∈ (slowStint 3).strides (handOver countingMachine [slowStint 2]) 2,
      before.marks = false := by
    simpa using (by decide +kernel :
      ((slowStint 3).strides (handOver countingMachine [slowStint 2]) 2).all
        (fun before => !before.marks) = true)
  have running : stride.machine.delay ≠ 0 := by rw [delay]; decide
  have tick : lastTick countingMachine.delaySince (history countingMachine [slowStint 2]) =
      100000000 := by decide +kernel
  refine ⟨stride, made, unmarked, running, ?_⟩
  rw [countsDown_iff_past_lastTick made unmarked running, tick, time]
  decide

/-- A delay timer can stand still for longer than a period of a run because of the tick
that an earlier run left behind. -/
theorem not_countsDown_after_handOver :
    ¬ ∀ (machine : Machine) (earlier : List Stint) (stint : Stint),
      (∀ run ∈ earlier ++ [stint], run.clock.FromZero ∧ run.pacing.check = .ok ()) →
      ∀ cycle stride, stint.strideIn? (handOver machine earlier) cycle = some stride →
        (∀ before ∈ stint.strides (handOver machine earlier) cycle, before.marks = false) →
        stride.machine.delay ≠ 0 → 16666666 < stride.time.toNat → stride.CountsDown := by
  intro always
  have seen : ((slowStint 2).strideIn? (handOver countingMachine [slowStint 2]) 1).map
      (fun stride => (stride.time, stride.machine.delay, decide stride.CountsDown)) =
        some (100000000, 255, false) := by
    decide +kernel
  obtain ⟨stride, made, known⟩ := Option.map_eq_some_iff.mp seen
  obtain ⟨time, delay, still⟩ : stride.time = 100000000 ∧ stride.machine.delay = 255 ∧
      ¬ stride.CountsDown := by simpa using known
  have unmarked : ∀ before ∈ (slowStint 2).strides (handOver countingMachine [slowStint 2]) 1,
      before.marks = false := by
    simpa using (by decide +kernel :
      ((slowStint 2).strides (handOver countingMachine [slowStint 2]) 1).all
        (fun before => !before.marks) = true)
  have regular : ∀ run ∈ [slowStint 2] ++ [slowStint 2],
      run.clock.FromZero ∧ run.pacing.check = .ok () := by
    intro run among
    have same : run = slowStint 2 := by simpa using among
    subst same
    exact ⟨idealClock_fromZero _, rfl⟩
  exact still (always countingMachine [slowStint 2] (slowStint 2) regular 1 stride made unmarked
    (by rw [delay]; decide) (by rw [time]; decide))

end ChipEight
