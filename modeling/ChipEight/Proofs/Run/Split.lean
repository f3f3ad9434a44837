import ChipEight.Proofs.Machine.Timers
import ChipEight.Proofs.Run.Strides
import ChipEight.Proofs.Run.Turns
import Mathlib.Algebra.Group.Nat.Defs
import Mathlib.Control.Monad.Basic

/-!
# A run in two parts

A run that reaches its limit and is taken up again by another run comes to what one run
with both limits together comes to, as long as no step reads the delay timer: the clocks
and the rates of the three runs make no other difference.
-/

set_option autoImplicit false

namespace ChipEight

/-! ## Runs that keep pace -/

namespace Machine

theorem afterEvent_without {timers : Timers} (machine : Machine) (event : PadEvent) :
    (machine.without timers).afterEvent event =
      (machine.afterEvent event).without timers := by
  cases event with
  | quit => rfl
  | press key => rw [afterEvent, press_without, afterEvent]
  | release key => rw [afterEvent, release_without, afterEvent]

theorem foldl_afterEvent_without {timers : Timers} (machine : Machine)
    (events : List PadEvent) :
    events.foldl afterEvent (machine.without timers) =
      (events.foldl afterEvent machine).without timers :=
  List.foldl_hom (without timers) afterEvent_without

end Machine

namespace Progress

/-- Two runs that come to the same but for the delay timer, one of them so many cycles
ahead of the other. -/
structure Abreast (lead : Nat) (ahead behind : Progress) : Prop where
  machine : ahead.machine.without .delay = behind.machine.without .delay
  unread : ahead.unread = behind.unread
  polls : ahead.polls = behind.polls + lead
  cycles : ahead.cycles = behind.cycles + lead

/-- The step that the next turn comes to, if it comes to one, does not read the delay
timer. -/
def Blind (times : Nat → UInt64) (progress : Progress) : Prop :=
  progress.batchEnding? = none → progress.takeBatch.machine.awaiting = none →
    ∀ x, (progress.takeBatch.machine.step (times progress.cycles) delayPeriod).1 ≠
      .ok (.readDelay x)

variable {lead : Nat} {ahead behind : Progress}

theorem Abreast.refl (progress : Progress) : Abreast 0 progress progress :=
  ⟨rfl, rfl, rfl, rfl⟩

theorem Abreast.takeBatch (abreast : Abreast lead ahead behind) :
    Abreast lead ahead.takeBatch behind.takeBatch where
  machine := by
    simp only [Progress.takeBatch]
    rw [← Machine.foldl_afterEvent_without, ← Machine.foldl_afterEvent_without,
      abreast.machine, abreast.unread]
  unread := congrArg List.tail abreast.unread
  polls := by
    have polls := abreast.polls
    simp only [Progress.takeBatch]
    omega
  cycles := abreast.cycles

theorem Abreast.batchEnding_eq (abreast : Abreast lead ahead behind) :
    ahead.batchEnding? = behind.batchEnding? := by
  unfold batchEnding?
  rw [abreast.unread]

theorem drive_one_abreast (abreast : Abreast lead ahead behind) {times : Nat → UInt64}
    (others : Nat → UInt64) (blind : ahead.Blind times) :
    (drive none times 1 ahead).1 = (drive none others 1 behind).1 ∧
      Abreast lead (drive none times 1 ahead).2 (drive none others 1 behind).2 := by
  have batch := abreast.takeBatch
  have cycles : ahead.cycles + 1 = behind.cycles + 1 + lead := by
    have cycles := abreast.cycles
    omega
  have sameWait : ahead.takeBatch.machine.awaiting = behind.takeBatch.machine.awaiting :=
    (congrArg Machine.awaiting batch.machine :)
  rw [drive_one, drive_one, ← abreast.batchEnding_eq, ← sameWait]
  cases ended : ahead.batchEnding? with
  | some ending => exact ⟨rfl, batch⟩
  | none =>
      cases waiting : ahead.takeBatch.machine.awaiting with
      | some register => exact ⟨rfl, batch.machine, batch.unread, batch.polls, cycles⟩
      | none =>
          obtain ⟨reply, after⟩ := Machine.step_congr batch.machine (times ahead.cycles)
            delayPeriod (others behind.cycles) delayPeriod
          have next := after (blind ended waiting)
          dsimp only
          rcases went : ahead.takeBatch.machine.step (times ahead.cycles) delayPeriod
            with ⟨outcome, machine⟩
          rcases wentBehind : behind.takeBatch.machine.step (others behind.cycles) delayPeriod
            with ⟨outcomeBehind, machineBehind⟩
          rw [went, wentBehind] at reply next
          cases (reply : outcome = outcomeBehind)
          cases outcome with
          | error fault => exact ⟨rfl, next, batch.unread, batch.polls, batch.cycles⟩
          | ok instruction => exact ⟨rfl, next, batch.unread, batch.polls, cycles⟩

theorem drive_abreast (abreast : Abreast lead ahead behind) {times : Nat → UInt64}
    (others : Nat → UInt64) {most : Nat}
    (blind : ∀ done < most, ∀ reached, drive none times done ahead = (none, reached) →
      reached.Blind times) :
    (drive none times most ahead).1 = (drive none others most behind).1 ∧
      Abreast lead (drive none times most ahead).2 (drive none others most behind).2 := by
  -- The last turn is split off, since `blind` speaks of what is reached from the start.
  induction most with
  | zero => exact ⟨rfl, abreast⟩
  | succ more ih =>
      obtain ⟨same, kept⟩ := ih fun done before => blind done (Nat.lt_succ_of_lt before)
      have sees := blind more (Nat.lt_succ_self more)
      rw [drive_add, drive_add]
      rcases drove : drive none times more ahead with ⟨ending, reached⟩
      rcases droveBehind : drive none others more behind with ⟨endingBehind, reachedBehind⟩
      rw [drove, droveBehind] at same kept
      cases (same : ending = endingBehind)
      cases ending with
      | some ending => exact ⟨rfl, kept⟩
      | none => exact drive_one_abreast kept others (sees reached drove)

theorem driveUpTo_abreast (abreast : Abreast lead ahead behind) {times : Nat → UInt64}
    (others : Nat → UInt64) {most : Nat}
    (blind : ∀ done < most, ∀ reached, drive none times done ahead = (none, reached) →
      reached.Blind times) :
    (driveUpTo most times ahead).1 = (driveUpTo most others behind).1 ∧
      Abreast lead (driveUpTo most times ahead).2 (driveUpTo most others behind).2 := by
  obtain ⟨same, kept⟩ := drive_abreast abreast others blind
  unfold driveUpTo
  rcases drove : drive none times most ahead with ⟨ending, reached⟩
  rcases droveBehind : drive none others most behind with ⟨endingBehind, reachedBehind⟩
  rw [drove, droveBehind] at same kept
  cases (same : ending = endingBehind)
  cases ending with
  | none => exact ⟨rfl, kept⟩
  | some ending => exact ⟨rfl, kept⟩

end Progress

theorem Ending.outcome_add (ending : Ending) (earlier cycles : Nat) :
    ending.outcome (earlier + cycles) = (ending.outcome cycles).map (earlier + ·) := by
  cases ending with
  | limit | quit => rfl
  | refusedKey key => rfl
  | failedStep cause => rfl

/-! ## The runs -/

/-- The step executes the instruction that reads the delay timer. -/
def Stride.readsDelay (stride : Stride) : Bool :=
  match (stride.machine.step stride.time delayPeriod).1 with
  | .ok (.readDelay _) => true
  | _ => false

theorem Stride.readsDelay_of_step {stride : Stride} {x : Register}
    (reads : (stride.machine.step stride.time delayPeriod).1 = .ok (.readDelay x)) :
    stride.readsDelay = true := by
  rw [readsDelay, reads]

/-- All that goes into a run but the machine, the batches of events and the limit. -/
structure Venue where
  {Displays : Type}
  display : DisplayDevice Displays
  displays : Displays
  steady : display.NeverFails displays
  rates : Pacing
  clock : Clock

namespace Venue

def pacing (venue : Venue) (limit : UInt64) : Pacing :=
  { venue.rates with cycleLimit := some limit }

def session (venue : Venue) (machine : Machine) (batches : List (List PadEvent)) :
    Session EventScript venue.Displays where
  run := { machine }
  input := { batches }
  display := venue.displays

def run (venue : Venue) (limit : UInt64) (machine : Machine) (batches : List (List PadEvent)) :
    Option (Except RunFailure Nat) × Session EventScript venue.Displays :=
  Session.start .script venue.display (venue.pacing limit) venue.clock machine { batches }
    venue.displays

/-- The steps that the run makes. -/
def strides (venue : Venue) (limit : UInt64) (machine : Machine)
    (batches : List (List PadEvent)) : List Stride :=
  (venue.session machine batches).strides .script venue.display (venue.pacing limit)
    venue.clock (Session.followed (venue.pacing limit))

variable (venue : Venue) (machine : Machine) (batches : List (List PadEvent))

theorem run_driven (limit : UInt64) :
    let driven := driveUpTo limit.toNat venue.clock.stepTimes { machine, unread := batches }
    Session.Driven venue.display (venue.run limit machine batches)
      (some driven.1, driven.2) := by
  intro driven
  have agreed := Session.runFor_driven venue.display (venue.pacing limit) venue.clock
    (limit.toNat + 1) (venue.session machine batches) venue.steady rfl
  have ended : drive (some limit) venue.clock.stepTimes (limit.toNat + 1)
      { machine, unread := batches } = (some driven.1, driven.2) := drive_limit limit _ rfl
  rw [← ended]
  exact agreed

end Venue

theorem Session.stride?_of_running {Displays : Type} {session : Session EventScript Displays}
    {pacing : Pacing} (clock : Clock) (going : pacing.spent session.run.cycles = false)
    (working : session.input.breakdown = none)
    (goesOn : session.progress.batchEnding? = none)
    (running : session.progress.takeBatch.machine.awaiting = none) :
    session.stride? .script pacing clock =
      some ⟨session.progress.takeBatch.machine, clock.stepTimes session.progress.cycles,
        running⟩ := by
  have found : ((session.input.batches.headD []).find? fun event => !event.concernsKey) =
      none := by
    unfold Progress.batchEnding? at goesOn
    split at goesOn
    · assumption
    all_goals cases goesOn
  have delivered : session.run.machine.deliver (session.input.batches.headD []) =
      (.ok true, session.progress.takeBatch.machine) := by
    rw [Machine.deliver_eq, found]
    rfl
  simp only [stride?, going, Bool.false_eq_true, if_false, poll_script _ working, delivered]
  exact dif_pos running

theorem Venue.blind_of_strides {venue : Venue} {machine : Machine}
    {batches : List (List PadEvent)} {limit : UInt64}
    (unread : ∀ stride ∈ venue.strides limit machine batches,
      stride.readsDelay = false)
    {done : Nat} (within : done < limit.toNat) {reached : Progress}
    (drove : drive none venue.clock.stepTimes done { machine, unread := batches } =
      (none, reached)) :
    reached.Blind venue.clock.stepTimes := by
  intro goesOn running x reads
  have agreed := Session.loop_driven venue.display (venue.pacing limit) venue.clock done
    (venue.session machine batches) venue.steady rfl
  have limited : drive (venue.pacing limit).cycleLimit venue.clock.stepTimes done
      (venue.session machine batches).progress = (none, reached) := by
    refine (drive_within_limit ?_).trans drove
    change 0 + done ≤ limit.toNat
    omega
  rw [limited] at agreed
  rcases looped : (venue.session machine batches).loop .script venue.display
    (venue.pacing limit) venue.clock done with ⟨outcome, session⟩
  rw [looped] at agreed
  obtain ⟨outcome, rfl, -, working⟩ := agreed
  cases outcome
  have cycles : session.run.cycles = done :=
    (counts_of_going drove).2.2.trans (Nat.zero_add done)
  have going : (venue.pacing limit).spent session.run.cycles = false :=
    decide_eq_false (by omega)
  let stride : Stride :=
    ⟨session.progress.takeBatch.machine, venue.clock.stepTimes session.progress.cycles, running⟩
  have made : (venue.session machine batches).strideIn? .script venue.display
      (venue.pacing limit) venue.clock done = some stride := by
    rw [Session.strideIn?, looped]
    exact Session.stride?_of_running venue.clock going working goesOn running
  have reading : stride.readsDelay = true := Stride.readsDelay_of_step reads
  have among := Session.mem_strides (Nat.lt_succ_of_lt within) made
  exact Bool.false_ne_true ((unread stride among).symm.trans reading)

namespace Venue

/-- A run that takes all the cycles it may take has polled that many batches. -/
theorem run_full {venue : Venue} {limit : UInt64} {machine : Machine}
    {batches : List (List PadEvent)}
    (full : (venue.run limit machine batches).1 = some (.ok limit.toNat)) :
    let left := (venue.run limit machine batches).2
    drive none venue.clock.stepTimes limit.toNat { machine, unread := batches } =
        (none, left.progress) ∧
      left.run.cycles = limit.toNat ∧ left.input.polls = limit.toNat ∧
      left.input.batches = batches.drop limit.toNat := by
  intro left
  let new : Progress := { machine, unread := batches }
  have ran := venue.run_driven machine batches limit
  have goes : drive none venue.clock.stepTimes limit.toNat new = (none, left.progress) := by
    have outcome := Option.some.inj (ran.outcome.symm.trans full)
    rw [ran.progress]
    exact going_of_outcome (outcome.trans (by rw [Nat.zero_add]))
  obtain ⟨taken, polls, cycles⟩ := counts_of_going goes
  exact ⟨goes, cycles.trans (Nat.zero_add _), polls.trans (Nat.zero_add _), taken⟩

/-- A run that takes all the cycles it may take, and a second one of the machine and of the
batches that it leaves, come to what one run with both limits comes to: the counts add up
or the error is the same, what is left of the batches is the same, and so is the machine
but for its delay timer. The rates, the clocks and the displays of the three runs may be
any, as long as no step of the one run reads the delay timer. The first run has polled the
batches before the seam, each once, and the second one begins with the next. -/
theorem run_split (one former latter : Venue) (machine : Machine)
    (batches : List (List PadEvent)) {before after : UInt64}
    (small : before.toNat + after.toNat < 2 ^ 64)
    (full : (former.run before machine batches).1 = some (.ok before.toNat))
    (unread : ∀ stride ∈ one.strides (before + after) machine batches,
      stride.readsDelay = false) :
    let first := (former.run before machine batches).2
    let second := latter.run after first.run.machine first.input.batches
    let whole := one.run (before + after) machine batches
    second.1.isSome ∧
      whole.1 = second.1.map (Except.map (before.toNat + ·)) ∧
      whole.2.input.batches = second.2.input.batches ∧
      whole.2.run.machine.without .delay = second.2.run.machine.without .delay ∧
      first.input.batches = batches.drop before.toNat ∧
      first.input.polls = before.toNat ∧
      whole.2.input.polls = before.toNat + second.2.input.polls := by
  intro first second whole
  have sum : (before + after).toNat = before.toNat + after.toNat := by
    rw [UInt64.toNat_add, Nat.mod_eq_of_lt small]
  let new : Progress := { machine, unread := batches }
  have blind : ∀ done < before.toNat + after.toNat, ∀ reached,
      drive none one.clock.stepTimes done new = (none, reached) →
        reached.Blind one.clock.stepTimes :=
    fun done within reached => blind_of_strides unread (sum ▸ within)
  obtain ⟨goes, cycles, polls, taken⟩ := run_full full
  -- When the first run stops, the one run has come as far.
  obtain ⟨still, seam⟩ := Progress.drive_abreast (Progress.Abreast.refl new)
    former.clock.stepTimes fun done (within : done < before.toNat) => blind done (by omega)
  rcases drove : drive none one.clock.stepTimes before.toNat new with ⟨ending, reached⟩
  rw [drove, goes] at still seam
  cases (still : ending = none)
  -- From there on it is ahead of the second run by the cycles of the first.
  have beside : Progress.Abreast before.toNat reached
      { machine := first.run.machine, unread := first.input.batches } := {
    machine := seam.machine
    unread := seam.unread
    polls := (seam.polls.trans polls).trans (Nat.zero_add _).symm
    cycles := (seam.cycles.trans cycles).trans (Nat.zero_add _).symm }
  obtain ⟨same, kept⟩ := Progress.driveUpTo_abreast beside latter.clock.stepTimes
    fun done (within : done < after.toNat) next going =>
      blind (before.toNat + done) (by omega) next (by rw [drive_add, drove]; exact going)
  have ranSecond : Session.Driven _ second _ :=
    latter.run_driven first.run.machine first.input.batches after
  have ranWhole : Session.Driven _ whole _ := one.run_driven machine batches (before + after)
  rw [sum, driveUpTo_add drove] at ranWhole
  rw [← ranSecond.progress, ← ranWhole.progress] at kept
  refine ⟨by rw [ranSecond.outcome]; rfl, ?_, kept.unread, kept.machine, taken, polls, ?_⟩
  · have counts := kept.cycles
    rw [ranWhole.progress, ranSecond.progress, Nat.add_comm] at counts
    rw [ranWhole.outcome, ranSecond.outcome, Option.map_some, Option.map_some, Option.map_some,
      same, counts, Ending.outcome_add]
  · exact kept.polls.trans (Nat.add_comm _ _)

def ideal (rates : Pacing) : Venue where
  display := .log
  displays := {}
  steady := DisplayDevice.log_neverFails []
  rates
  clock := rates.idealClock

/-- At the seam the machine awaits a key, which the next batch presses; a quit ends the
second run. -/
theorem run_split_awaiting_key :
    let machine := ((Machine.new (.counter 0 1)).load [0xf1, 0x0a, 0x62, 0x05, 0x12, 0x04]).2
    let batches : List (List PadEvent) :=
      [[], [.release 3], [.press 7], [.release 7], [.quit, .press 1], [.press 9]]
    let one := ideal { cycleRate := 10, frameRate := 3 }
    let former := ideal { cycleRate := 1000 }
    let latter := ideal { cycleRate := 7, frameRate := 100 }
    let first := (former.run 2 machine batches).2
    let second := latter.run 3 first.run.machine first.input.batches
    let whole := one.run (2 + 3) machine batches
    (former.run 2 machine batches).1 = some (.ok 2) ∧
      (∀ stride ∈ one.strides (2 + 3) machine batches, stride.readsDelay = false) ∧
      first.run.machine.awaiting = some 1 ∧
      first.input.batches = [[.press 7], [.release 7], [.quit, .press 1], [.press 9]] ∧
      second.1 = some (.ok 2) ∧ whole.1 = some (.ok 4) ∧
      whole.2.input.batches = [[.press 9]] ∧
      whole.2.run.machine.without .delay = second.2.run.machine.without .delay ∧
      whole.2.run.machine.registers[1] = 7 := by
  intro machine batches one former latter first second whole
  obtain ⟨full, waits, ended, later, pressed⟩ :
      (former.run 2 machine batches).1 = some (.ok 2) ∧ first.run.machine.awaiting = some 1 ∧
        second.1 = some (.ok 2) ∧ second.2.input.batches = [[.press 9]] ∧
        whole.2.run.machine.registers[1] = 7 := by
    decide +kernel
  have unread : ∀ stride ∈ one.strides (2 + 3) machine batches, stride.readsDelay = false := by
    simpa using (by decide +kernel :
      (one.strides (2 + 3) machine batches).all (fun stride => !stride.readsDelay) = true)
  obtain ⟨-, outcome, left, same, seam, -, -⟩ :=
    run_split one former latter machine batches (by decide) full unread
  exact ⟨full, unread, waits, seam, ended, outcome.trans (congrArg _ ended), left.trans later,
    same, pressed⟩

end Venue

end ChipEight
