import ChipEight.Machine.Load
import ChipEight.Proofs.Run.Loop
import Mathlib.Control.Monad.Basic

/-!
# The failures of a run

All the calls that a run makes of its devices and its machine, in the order of time. What
fails in the loop ends it, so at most one call of the loop fails. The last frame is drawn
all the same, and if that fails as well, the run reports it in place of the first failure.
-/

set_option autoImplicit false

namespace ChipEight

/-! ## Calls -/

/-- A call that a run makes, with its outcome. -/
inductive Call where
  | poll (outcome : Except DeviceFailure (List PadEvent))
  | key (outcome : Except Fault Unit)
  | step (outcome : Except Fault Instruction)
  | draw (outcome : Except DeviceFailure Unit)

namespace Call

def failure? : Call → Option RunFailure
  | .poll (.error cause) | .draw (.error cause) => some (.device cause)
  | .key (.error fault) | .step (.error fault) => some (.machine fault)
  | .poll (.ok _) | .key (.ok _) | .step (.ok _) | .draw (.ok _) => none

end Call

/-- The failure that a run reports. -/
def reported? : Option (Except RunFailure Nat) → Option RunFailure
  | some (.error failure) => some failure
  | some (.ok _) | none => none

namespace Machine

/-- A call for each event, up to a quit or to the first key that is refused. -/
def keyCalls (machine : Machine) : List PadEvent → List Call
  | [] | .quit :: _ => []
  | .press key :: later =>
    match machine.press key with
    | (.ok (), next) => .key (.ok ()) :: next.keyCalls later
    | (.error fault, _) => [.key (.error fault)]
  | .release key :: later =>
    match machine.release key with
    | (.ok (), next) => .key (.ok ()) :: next.keyCalls later
    | (.error fault, _) => [.key (.error fault)]

def stepCalls (machine : Machine) (now : Nat) : List Call :=
  match machine.awaiting with
  | some _ => []
  | none => [.step (machine.step (UInt64.ofNat now) delayPeriod).1]

theorem failures_keyCalls (machine : Machine) (events : List PadEvent) :
    (machine.keyCalls events).filterMap Call.failure? =
      match (machine.deliver events).1 with
      | .error fault => [.machine fault]
      | .ok _ => [] := by
  induction events generalizing machine with
  | nil => rfl
  | cons event later ih =>
      cases event with
      | quit => rfl
      | press key =>
          rw [keyCalls, deliver]
          rcases machine.press key with ⟨outcome, next⟩
          cases outcome with
          | error fault => rfl
          | ok done => exact ih next
      | release key =>
          rw [keyCalls, deliver]
          rcases machine.release key with ⟨outcome, next⟩
          cases outcome with
          | error fault => rfl
          | ok done => exact ih next

theorem failures_stepCalls (machine : Machine) (now : Nat) :
    (machine.stepCalls now).filterMap Call.failure? =
      match (machine.stepUnlessAwaiting now).1 with
      | .error fault => [.machine fault]
      | .ok () => [] := by
  rw [stepCalls, stepUnlessAwaiting]
  cases machine.awaiting with
  | some register => rfl
  | none =>
      rcases machine.step (UInt64.ofNat now) delayPeriod with ⟨outcome, next⟩
      cases outcome with
      | error fault => rfl
      | ok instruction => rfl

end Machine

namespace Run

/-- The calls of a cycle before its frame: the poll, the keys and the step. -/
def cycleCalls (polled : Except DeviceFailure (List PadEvent)) (reading : Reading) (run : Run) :
    List Call :=
  .poll polled ::
    match polled with
    | .error _ => []
    | .ok events =>
      run.machine.keyCalls events ++
        match run.machine.deliver events with
        | (.ok true, machine) => machine.stepCalls reading.stepTime
        | _ => []

theorem failures_cycleCalls (pacing : Pacing) (polled : Except DeviceFailure (List PadEvent))
    (reading : Reading) (run : Run) :
    (run.cycleCalls polled reading).filterMap Call.failure? =
      match (run.cycle pacing polled reading).1 with
      | .ended outcome => (reported? (some outcome)).toList
      | .completed _ => [] := by
  cases polled with
  | error cause => rfl
  | ok events =>
      have keys := run.machine.failures_keyCalls events
      have noneYet : Call.failure? (.poll (.ok events)) = none := rfl
      rw [cycleCalls, cycle, List.filterMap_cons_none noneYet, List.filterMap_append, keys]
      rcases run.machine.deliver events with ⟨delivered, machine⟩
      cases delivered with
      | error fault => rfl
      | ok goesOn =>
          cases goesOn with
          | false => rfl
          | true =>
              have step := machine.failures_stepCalls reading.stepTime
              dsimp only
              rw [step, stepAndCount]
              dsimp only
              rcases machine.stepUnlessAwaiting reading.stepTime with ⟨outcome, next⟩
              cases outcome with
              | error fault => rfl
              | ok done =>
                  by_cases due : run.frameDueAt ≤ reading.startTime
                  · simp only [if_pos due]
                    rfl
                  · simp only [if_neg due]
                    rfl

end Run

/-! ## The calls of a run -/

namespace Session

variable {Inputs Displays : Type} (input : InputDevice Inputs) (display : DisplayDevice Displays)
  (pacing : Pacing) (clock : Clock)

def turnCalls (session : Session Inputs Displays) : List Call :=
  if pacing.spent session.run.cycles then []
  else
    let (polled, inputs) := input.poll session.input
    let reading := clock session.run.cycles
    session.run.cycleCalls polled reading ++
      match session.run.cycle pacing polled reading with
      | (.completed true, run) => [.draw (draw display { session with run, input := inputs }).1]
      | _ => []

def loopCalls : Nat → Session Inputs Displays → List Call
  | 0, _ => []
  | more + 1, session =>
    session.turnCalls input display pacing clock ++
      match session.loop input display pacing clock 1 with
      | (none, reached) => reached.loopCalls more
      | (some _, _) => []

/-- The calls of a run, with the frame on the way out. -/
def calls (most : Nat) (session : Session Inputs Displays) : List Call :=
  session.loopCalls input display pacing clock most ++
    match session.loop input display pacing clock most with
    | (none, _) => []
    | (some _, last) => [.draw (last.draw display).1]

/-- What fails in a run, in the order of time. -/
def failures (most : Nat) (session : Session Inputs Displays) : List RunFailure :=
  (session.calls input display pacing clock most).filterMap Call.failure?

theorem failures_turnCalls (session : Session Inputs Displays) :
    (session.turnCalls input display pacing clock).filterMap Call.failure? =
      (reported? (session.loop input display pacing clock 1).1).toList := by
  simp only [turnCalls, loop]
  cases pacing.spent session.run.cycles with
  | true => rfl
  | false =>
      have cycle := session.run.failures_cycleCalls pacing (input.poll session.input).1
        (clock session.run.cycles)
      simp only [Bool.false_eq_true, if_false, List.filterMap_append, cycle]
      rcases session.run.cycle pacing (input.poll session.input).1 (clock session.run.cycles)
        with ⟨went, run⟩
      cases went with
      | ended outcome => exact List.append_nil _
      | completed due =>
          cases due with
          | false => rfl
          | true =>
              dsimp only
              rcases draw display { session with run, input := (input.poll session.input).2 }
                with ⟨drawn, next⟩
              cases drawn with
              | error cause => rfl
              | ok done => rfl

/-- What fails in the loop is what ends it, if a failure ends it. -/
theorem failures_loopCalls (most : Nat) (session : Session Inputs Displays) :
    (session.loopCalls input display pacing clock most).filterMap Call.failure? =
      (reported? (session.loop input display pacing clock most).1).toList := by
  induction most generalizing session with
  | zero => rfl
  | succ more ih =>
      have turn := session.failures_turnCalls input display pacing clock
      rw [loopCalls, List.filterMap_append, turn,
        loop_succ_first input display pacing clock more]
      rcases session.loop input display pacing clock 1 with ⟨outcome, reached⟩
      cases outcome with
      | none => exact ih reached
      | some ended =>
          -- Nothing is called in the loop after the turn that ends it.
          exact List.append_nil _

/-- The last frame adds its call to those of the loop, and its failure comes before the
outcome of the loop. -/
theorem runFor_of_ended {most : Nat} {session last : Session Inputs Displays}
    {outcome : Except RunFailure Nat}
    (ended : session.loop input display pacing clock most = (some outcome, last)) :
    let lastDraw := Call.draw (last.draw display).1
    reported? (session.runFor input display pacing clock most).1 =
        (lastDraw.failure?.or (reported? (some outcome))) ∧
      session.failures input display pacing clock most =
        (reported? (some outcome)).toList ++ lastDraw.failure?.toList ∧
      (session.calls input display pacing clock most).getLast? = some lastDraw := by
  intro lastDraw
  have looped := session.failures_loopCalls input display pacing clock most
  rw [ended] at looped
  refine ⟨?_, ?_, ?_⟩
  · rw [runFor, ended]
    dsimp only [lastDraw]
    rcases last.draw display with ⟨drawn, final⟩
    cases drawn with
    | error cause => rfl
    | ok done => rfl
  · rw [failures, calls, ended, List.filterMap_append, looped]
    cases failed : lastDraw.failure? with
    | none => rw [List.filterMap_cons_none failed]; rfl
    | some failure => rw [List.filterMap_cons_some failed]; rfl
  · rw [calls, ended]
    exact List.getLast?_concat

/-- A run reports what failed last. No more than two calls of it fail, and the first failure
is what it reports unless the last frame cannot be drawn either, for another reason. -/
theorem reported_eq_last_failure (most : Nat) (session : Session Inputs Displays) :
    let reported := reported? (session.runFor input display pacing clock most).1
    let failures := session.failures input display pacing clock most
    reported = failures.getLast? ∧ failures.length ≤ 2 ∧
      (reported = failures.head? ↔
        ∀ failure cause, failures.head? = some failure →
          (session.calls input display pacing clock most).getLast? =
            some (.draw (.error cause)) →
          failure = .device cause) := by
  intro reported failures
  rcases looped : session.loop input display pacing clock most with ⟨outcome, last⟩
  cases outcome with
  | none =>
      have reports : reported = none := by
        simp only [reported, runFor, looped, reported?]
      have failed : failures = [] := by
        have inLoop := session.failures_loopCalls input display pacing clock most
        rw [looped] at inLoop
        simp only [failures, Session.failures, calls, looped, List.append_nil, inLoop]
        rfl
      rw [reports, failed]
      refine ⟨rfl, Nat.zero_le _, iff_of_true rfl fun failure cause first => ?_⟩
      cases first
  | some outcome =>
      obtain ⟨reports, failed, lastCall⟩ :=
        runFor_of_ended input display pacing clock looped
      have reports : reported = _ := reports
      have failed : failures = _ := failed
      rw [reports, failed, lastCall]
      rcases last.draw display with ⟨drawn, final⟩
      cases drawn with
      | ok done =>
          cases reported? (some outcome) with
          | none =>
              refine ⟨rfl, Nat.zero_le _, iff_of_true rfl fun failure cause first => ?_⟩
              cases first
          | some former =>
              refine ⟨rfl, Nat.le_succ 1, iff_of_true rfl fun failure cause _ last => ?_⟩
              cases last
      | error cause =>
          cases reported? (some outcome) with
          | none =>
              refine ⟨rfl, Nat.le_succ 1, iff_of_true rfl fun failure other first last => ?_⟩
              cases first
              cases last
              rfl
          | some former =>
              refine ⟨rfl, Nat.le_refl 2, fun same failure other first last => ?_,
                fun same => congrArg some (same former cause rfl rfl).symm⟩
              cases same
              cases first
              cases last
              rfl

/-- A return without a call ends a run whose display has broken down, and the run reports
the display. -/
theorem not_always_first_failure :
    ¬ ∀ (Inputs Displays : Type) (input : InputDevice Inputs) (display : DisplayDevice Displays)
      (pacing : Pacing) (machine : Machine) (inputs : Inputs) (displays : Displays),
      pacing.check = .ok () →
      ∀ failure,
        (failures input display pacing pacing.idealClock (followed pacing)
          { run := { machine }, input := inputs, display := displays }).head? = some failure →
        (start input display pacing pacing.idealClock machine inputs displays).1 =
          some (.error failure) := by
  intro always
  let pacing : Pacing :=
    { cycleRate := 4294967295, frameRate := 4294967295, cycleLimit := some 4 }
  let machine := ((Machine.new (.counter 60 0)).load [0x00, 0xee]).2
  let broken : FrameLog := { breakdown := some ⟨0, .device "screen unplugged"⟩ }
  have first : (failures .script .log pacing pacing.idealClock (followed pacing)
      { run := { machine }, input := { batches := [] }, display := broken }).head? =
        some (.machine .callStackEmpty) := by
    decide +kernel
  have ended : (start .script .log pacing pacing.idealClock machine { batches := [] } broken).1 =
      some (.error (.device (.device "screen unplugged"))) := by
    decide +kernel
  have reports := always _ _ .script .log pacing machine { batches := [] } broken rfl _ first
  cases ended.symm.trans reports

end Session

end ChipEight
