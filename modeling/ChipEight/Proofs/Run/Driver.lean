import ChipEight.Proofs.Run.Delivery
import ChipEight.Run.Session

/-!
# A run without its devices

What a run on batches of events comes to once frames and sleep are left out: a driver on
the machine, the unread batches and two counts. A run whose display never fails has the
outcome of this driver, and leaves its machine and its unread batches.
-/

set_option autoImplicit false

namespace ChipEight

/-! ## The driver -/

inductive Ending where
  | limit
  | quit
  | refusedKey (key : UInt8)
  | failedStep (cause : Fault)
deriving DecidableEq, Repr

def Ending.outcome (cycles : Nat) : Ending → Except RunFailure Nat
  | .limit | .quit => .ok cycles
  | .refusedKey key => .error (.machine (.keyOutOfRange key))
  | .failedStep cause => .error (.machine cause)

structure Progress where
  machine : Machine
  unread : List (List PadEvent)
  polls : Nat := 0
  cycles : Nat := 0

/-- Takes the next batch, up to the first event that concerns no key. -/
def Progress.takeBatch (progress : Progress) : Progress :=
  { progress with
    machine := ((progress.unread.headD []).takeWhile PadEvent.concernsKey).foldl
      Machine.afterEvent progress.machine
    unread := progress.unread.tail
    polls := progress.polls + 1 }

def Progress.batchEnding? (progress : Progress) : Option Ending :=
  match (progress.unread.headD []).find? fun event => !event.concernsKey with
  | none => none
  | some .quit => some .quit
  | some (.press key) | some (.release key) => some (.refusedKey key)

/-- Drives a machine until the run ends; `none` if it goes on after so many cycles. The
time of each step is given in nanoseconds. -/
def drive (limit : Option UInt64) (times : Nat → UInt64) :
    Nat → Progress → Option Ending × Progress
  | 0, progress => (none, progress)
  | more + 1, progress =>
    if limit.any fun most => most.toNat ≤ progress.cycles then (some .limit, progress)
    else
      let taken := progress.takeBatch
      match progress.batchEnding? with
      | some ending => (some ending, taken)
      | none =>
        if taken.machine.awaiting.isSome then
          drive limit times more { taken with cycles := taken.cycles + 1 }
        else
          match taken.machine.step (times progress.cycles) 16666666 with
          | (.error fault, machine) => (some (.failedStep fault), { taken with machine })
          | (.ok _, machine) =>
            drive limit times more { taken with machine, cycles := taken.cycles + 1 }

/-- The times of the steps of a run, as the machine is given them. -/
def Clock.stepTimes (clock : Clock) : Nat → UInt64 :=
  fun cycle => UInt64.ofNat (clock cycle).stepTime

/-- A turn of the driver, with the step and the wait put together. -/
theorem drive_succ (limit : Option UInt64) (clock : Clock) (more : Nat) (progress : Progress) :
    drive limit clock.stepTimes (more + 1) progress =
      if limit.any fun most => most.toNat ≤ progress.cycles then (some .limit, progress)
      else
        match progress.batchEnding? with
        | some ending => (some ending, progress.takeBatch)
        | none =>
          match progress.takeBatch.machine.stepUnlessAwaiting
            (clock progress.cycles).stepTime with
          | (.error fault, machine) =>
            (some (.failedStep fault), { progress.takeBatch with machine })
          | (.ok (), machine) =>
            drive limit clock.stepTimes more
              { progress.takeBatch with machine, cycles := progress.cycles + 1 } := by
  rw [drive]
  congr 1
  cases progress.batchEnding? with
  | some ending => rfl
  | none =>
      simp only [Machine.stepUnlessAwaiting]
      cases waiting : progress.takeBatch.machine.awaiting with
      | some register => rfl
      | none =>
          dsimp only
          have time : UInt64.ofNat (clock progress.cycles).stepTime =
            clock.stepTimes progress.cycles := rfl
          have period : delayPeriod = 16666666 := rfl
          rw [time, period]
          rcases progress.takeBatch.machine.step (clock.stepTimes progress.cycles) 16666666
            with ⟨outcome, machine⟩
          cases outcome with
          | error fault => rfl
          | ok instruction => rfl

/-- The ending comes after a poll whose cycle is not counted. -/
def Ending.afterPoll : Ending → Bool
  | .limit => false
  | .quit | .refusedKey _ | .failedStep _ => true

theorem afterPoll_of_batchEnding {progress : Progress} {ending : Ending}
    (found : progress.batchEnding? = some ending) : ending.afterPoll = true := by
  unfold Progress.batchEnding? at found
  split at found
  · cases found
  · cases found; rfl
  · cases found; rfl
  · cases found; rfl

/-- Every cycle polls once, and so does the turn that a poll or a step ends. -/
theorem polls_drive (limit : Option UInt64) (times : Nat → UInt64) (most : Nat)
    (progress : Progress) :
    (drive limit times most progress).2.polls + progress.cycles =
      progress.polls + (drive limit times most progress).2.cycles +
        if (drive limit times most progress).1.any Ending.afterPoll then 1 else 0 := by
  induction most generalizing progress with
  | zero => rfl
  | succ more ih =>
      rw [drive]
      split
      case isTrue spent => rfl
      case isFalse going =>
          dsimp only
          split
          case h_1 ending found =>
              simp only [Option.any_some, afterPoll_of_batchEnding found, if_true,
                Progress.takeBatch]
              omega
          case h_2 =>
              split
              case isTrue waiting =>
                  have counted := ih
                    { progress.takeBatch with cycles := progress.takeBatch.cycles + 1 }
                  simp only [Progress.takeBatch] at counted ⊢
                  omega
              case isFalse running =>
                  split
                  case h_1 fault machine failed =>
                      simp only [Option.any_some, Ending.afterPoll, if_true,
                        Progress.takeBatch]
                      omega
                  case h_2 instruction machine stepped =>
                      have counted := ih
                        { progress.takeBatch with
                          machine, cycles := progress.takeBatch.cycles + 1 }
                      simp only [Progress.takeBatch] at counted ⊢
                      omega

/-- A limit that lies within the turns given ends the run, unless something else does. -/
theorem drive_ends {limit : UInt64} (times : Nat → UInt64) {most : Nat} {progress : Progress}
    (within : progress.cycles ≤ limit.toNat) (enough : limit.toNat < progress.cycles + most) :
    (drive (some limit) times most progress).1.isSome := by
  induction most generalizing progress with
  | zero => exact absurd enough (Nat.not_lt.mpr within)
  | succ more ih =>
      rw [drive]
      split
      case isTrue spent => rfl
      case isFalse going =>
          have under : progress.cycles < limit.toNat := by simpa using going
          dsimp only
          split
          case h_1 => rfl
          case h_2 =>
              split
              case isTrue waiting =>
                  exact ih under (by simp only [Progress.takeBatch]; omega)
              case isFalse running =>
                  split
                  case h_1 => rfl
                  case h_2 => exact ih under (by simp only [Progress.takeBatch]; omega)

/-! ## Displays that never fail -/

namespace DisplayDevice

variable {Displays : Type}

def after (device : DisplayDevice Displays) (state : Displays) (screens : List Screen) :
    Displays :=
  screens.foldl (fun state screen => (device.draw screen state).2) state

/-- Whatever has been drawn before, drawing succeeds. -/
def NeverFails (device : DisplayDevice Displays) (state : Displays) : Prop :=
  ∀ screens screen, (device.draw screen (device.after state screens)).1 = .ok ()

theorem NeverFails.draw {device : DisplayDevice Displays} {state : Displays}
    (steady : device.NeverFails state) (screen : Screen) :
    (device.draw screen state).1 = .ok () := steady [] screen

theorem NeverFails.next {device : DisplayDevice Displays} {state : Displays}
    (steady : device.NeverFails state) (screen : Screen) :
    device.NeverFails (device.draw screen state).2 :=
  fun screens => steady (screen :: screens)

theorem draw_log (screen : Screen) (drawn : FrameLog) (working : drawn.breakdown = none) :
    log.draw screen drawn = (.ok (), { frames := screen :: drawn.frames }) := by
  simp [log, working, Breakdown.use]

theorem log_neverFails (frames : List Screen) : log.NeverFails { frames } := by
  have working : ∀ screens drawn, drawn.breakdown = none →
      (log.after drawn screens).breakdown = none := by
    intro screens
    induction screens with
    | nil => exact fun _ steady => steady
    | cons screen later ih =>
        intro drawn steady
        have kept : (log.draw screen drawn).2.breakdown = none := by
          rw [draw_log screen drawn steady]
        exact ih _ kept
  intro screens screen
  rw [draw_log screen _ (working screens { frames } rfl)]

end DisplayDevice

/-! ## The run and the driver -/

namespace Session

variable {Displays : Type}

def progress (session : Session EventScript Displays) : Progress where
  machine := session.run.machine
  unread := session.input.batches
  polls := session.input.polls
  cycles := session.run.cycles

theorem poll_script (script : EventScript) (working : script.breakdown = none) :
    InputDevice.script.poll script =
      (.ok (script.batches.headD []),
        { batches := script.batches.tail, polls := script.polls + 1 }) := by
  simp [InputDevice.script, working, Breakdown.use]

theorem spent_eq (pacing : Pacing) (cycles : Nat) :
    pacing.spent cycles = pacing.cycleLimit.any fun most => most.toNat ≤ cycles := by
  unfold Pacing.spent
  cases pacing.cycleLimit <;> rfl

structure Driven (display : DisplayDevice Displays)
    (looped : Option (Except RunFailure Nat) × Session EventScript Displays)
    (driven : Option Ending × Progress) : Prop where
  outcome : looped.1 = driven.1.map (·.outcome driven.2.cycles)
  progress : looped.2.progress = driven.2
  steady : display.NeverFails looped.2.display
  working : looped.2.input.breakdown = none

theorem draw_of_neverFails {display : DisplayDevice Displays} {state : Displays}
    (steady : display.NeverFails state) (run : Run) (input : EventScript) :
    draw display { run, input, display := state } =
      (.ok (), { run, input, display := (display.draw run.machine.screen state).2 }) := by
  unfold draw
  dsimp only
  rw [steady.draw run.machine.screen]

theorem loop_driven (display : DisplayDevice Displays) (pacing : Pacing) (clock : Clock)
    (most : Nat) (session : Session EventScript Displays)
    (steady : display.NeverFails session.display) (working : session.input.breakdown = none) :
    Driven display (session.loop .script display pacing clock most)
      (drive pacing.cycleLimit clock.stepTimes most session.progress) := by
  induction most generalizing session with
  | zero => exact ⟨rfl, rfl, steady, working⟩
  | succ more ih =>
      rw [loop, drive_succ, spent_eq]
      cases spent : pacing.cycleLimit.any fun most => most.toNat ≤ session.run.cycles with
      | true =>
          have ended : (pacing.cycleLimit.any fun most =>
            most.toNat ≤ session.progress.cycles) = true := spent
          rw [ended]
          exact ⟨rfl, rfl, steady, working⟩
      | false =>
          have under : (pacing.cycleLimit.any fun most =>
            most.toNat ≤ session.progress.cycles) = false := spent
          rw [under, poll_script session.input working]
          simp only [Run.cycle, Machine.deliver_eq, Progress.batchEnding?]
          have batch : session.progress.unread.headD [] = session.input.batches.headD [] := rfl
          rw [batch]
          cases (session.input.batches.headD []).find? fun event => !event.concernsKey with
          | some event =>
              cases event with
              | quit => exact ⟨rfl, rfl, steady, rfl⟩
              | press key => exact ⟨rfl, rfl, steady, rfl⟩
              | release key => exact ⟨rfl, rfl, steady, rfl⟩
          | none =>
              have taken : List.foldl Machine.afterEvent session.run.machine
                  (List.takeWhile PadEvent.concernsKey (session.input.batches.headD [])) =
                    session.progress.takeBatch.machine := rfl
              have reading : (clock session.progress.cycles).stepTime =
                (clock session.run.cycles).stepTime := rfl
              simp only [Run.stepAndCount, taken, reading]
              rcases session.progress.takeBatch.machine.stepUnlessAwaiting
                (clock session.run.cycles).stepTime with ⟨outcome, machine⟩
              cases outcome with
              | error fault => exact ⟨rfl, rfl, steady, rfl⟩
              | ok done =>
                  -- With a frame or without one, the driver sees the same progress.
                  by_cases due : session.run.frameDueAt ≤ (clock session.run.cycles).startTime
                  · simp only [if_pos due]
                    rw [draw_of_neverFails steady]
                    exact ih _ (steady.next _) rfl
                  · simp only [if_neg due]
                    exact ih _ steady rfl

/-- The frame on the way out changes nothing that the driver sees. -/
theorem runFor_driven (display : DisplayDevice Displays) (pacing : Pacing) (clock : Clock)
    (most : Nat) (session : Session EventScript Displays)
    (steady : display.NeverFails session.display) (working : session.input.breakdown = none) :
    Driven display (session.runFor .script display pacing clock most)
      (drive pacing.cycleLimit clock.stepTimes most session.progress) := by
  have agreed := loop_driven display pacing clock most session steady working
  unfold runFor
  rcases looped : loop .script display pacing clock most session with ⟨outcome, last⟩
  rw [looped] at agreed
  cases outcome with
  | none => exact agreed
  | some ended =>
      dsimp only
      rw [draw_of_neverFails agreed.steady]
      exact ⟨agreed.outcome, agreed.progress, agreed.steady.next _, agreed.working⟩

theorem outcome_eq_ok {ending : Ending} {cycles count : Nat}
    (ended : ending.outcome cycles = .ok count) :
    (ending = .limit ∨ ending = .quit) ∧ cycles = count := by
  cases ending with
  | limit => cases ended; exact ⟨.inl rfl, rfl⟩
  | quit => cases ended; exact ⟨.inr rfl, rfl⟩
  | refusedKey key => cases ended
  | failedStep cause => cases ended

/-- A run on batches of events with a display that never fails is the driver's run: it
has the same outcome, and leaves the same machine and the same unread batches. Its count
is the number of polls, or one less when a quit ended it; with a limit it ends. -/
theorem runFor_eq_drive (display : DisplayDevice Displays) (pacing : Pacing) (clock : Clock)
    (machine : Machine) (batches : List (List PadEvent)) (displays : Displays)
    (steady : display.NeverFails displays) (most : Nat) :
    let ran := runFor .script display pacing clock most
      { run := { machine }, input := { batches }, display := displays }
    let driven := drive pacing.cycleLimit clock.stepTimes most { machine, unread := batches }
    ran.1 = driven.1.map (·.outcome driven.2.cycles) ∧
      ran.2.run.machine = driven.2.machine ∧
      ran.2.input.batches = driven.2.unread ∧
      ran.2.input.polls = driven.2.polls ∧
      (∀ count, ran.1 = some (.ok count) →
        (driven.1 = some .limit ∧ ran.2.input.polls = count) ∨
          (driven.1 = some .quit ∧ ran.2.input.polls = count + 1)) ∧
      (∀ limit, pacing.cycleLimit = some limit → limit.toNat < most → ran.1.isSome) := by
  intro ran driven
  have agreed : Driven display ran driven :=
    runFor_driven display pacing clock most _ steady rfl
  have polled : ran.2.input.polls = driven.2.polls := congrArg Progress.polls agreed.progress
  refine ⟨agreed.outcome, congrArg Progress.machine agreed.progress,
    congrArg Progress.unread agreed.progress, polled, ?_, ?_⟩
  · intro count counted
    rw [agreed.outcome, Option.map_eq_some_iff] at counted
    obtain ⟨ending, ended, outcome⟩ := counted
    obtain ⟨cause, rfl⟩ := outcome_eq_ok outcome
    have polls := polls_drive pacing.cycleLimit clock.stepTimes most
      { machine, unread := batches }
    change driven.2.polls + 0 = 0 + driven.2.cycles +
      (if driven.1.any Ending.afterPoll then 1 else 0) at polls
    rw [polled]
    rcases cause with rfl | rfl
    · rw [ended] at polls ⊢
      exact .inl ⟨rfl, by simpa [Ending.afterPoll] using polls⟩
    · rw [ended] at polls ⊢
      exact .inr ⟨rfl, by simpa [Ending.afterPoll] using polls⟩
  · intro limit limited enough
    have ends : driven.1.isSome := by
      simp only [driven, limited]
      exact drive_ends clock.stepTimes (Nat.zero_le _) (by simpa using enough)
    rw [agreed.outcome, Option.isSome_map]
    exact ends

theorem runFor_eq_drive_quit :
    let awaiting : Machine := { Machine.new (.counter 0 1) with awaiting := some 3 }
    let ran := runFor .script .log {} (Pacing.idealClock {}) 5
      { run := { machine := awaiting }
        input := { batches := [[], [.release 1, .quit, .press 9], [.press 2]] }
        display := {} }
    DisplayDevice.log.NeverFails {} ∧ ran.1 = some (.ok 1) ∧ ran.2.input.polls = 2 ∧
      ran.2.input.batches = [[.press 2]] := by
  intro awaiting ran
  have steady : DisplayDevice.log.NeverFails {} := DisplayDevice.log_neverFails []
  obtain ⟨outcome, -, unread, polls, -, -⟩ := runFor_eq_drive .log {} (Pacing.idealClock {})
    awaiting [[], [.release 1, .quit, .press 9], [.press 2]] {} steady 5
  exact ⟨steady, outcome.trans rfl, polls.trans rfl, unread.trans rfl⟩

end Session

end ChipEight
