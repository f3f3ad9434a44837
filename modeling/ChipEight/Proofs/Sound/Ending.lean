import ChipEight.Proofs.Sound.CallLog
import ChipEight.Sound.Thread
import Mathlib.Logic.Function.Iterate

/-!
# How playback leaves a speaker

Playback gives up its speaker at the first call that fails, and stops it at the end otherwise.
So all calls but the last one have succeeded, and a speaker can be left sounding in one way
only: by a beep that fails right after one that has succeeded.
-/

set_option autoImplicit false

namespace ChipEight

namespace PlaybackThread

open Asked

variable {State : Type}

/-! ## Actions -/

theorem act_of_finished {speaker : Speaker State} {tick : TickState State}
    {muted closed : Bool}
    (finished : (tick.act (if muted then .mute else speaker)).phase = .finished) :
    let last := tick.act (if muted then .mute else speaker)
    act speaker ⟨.ticking, tick, muted, closed⟩ =
      ⟨.pausing, { timer := last.timer, device := last.device },
        muted || !last.outcome.isOk, closed⟩ := if_pos finished

theorem act_of_unfinished {speaker : Speaker State} {tick : TickState State}
    {muted closed : Bool}
    (more : (tick.act (if muted then .mute else speaker)).phase ≠ .finished) :
    act speaker ⟨.ticking, tick, muted, closed⟩ =
      ⟨.ticking, tick.act (if muted then .mute else speaker), muted, closed⟩ := if_neg more

/-- What an action of a tick does to a log. A call that fails ends the tick. -/
inductive Logs (tick next : TickState (State × List Asked)) : Prop where
  | nothing (same : next.device.2 = tick.device.2) (sound : next.outcome.isOk = true)
  | call (asked : SpeakerCall)
      (more : next.device.2 = tick.device.2 ++ [⟨asked, next.outcome.isOk⟩])
      (failing : next.outcome.isOk = false → next.phase = .finished)

theorem logs_act (speaker : Speaker State) {tick : TickState (State × List Asked)}
    (sound : tick.outcome.isOk = true) : Logs tick (tick.act speaker.logged) := by
  obtain ⟨phase, timer, device, outcome⟩ := tick
  cases phase with
  | reading | lowering | finished => exact .nothing rfl sound
  | beeping =>
      rcases answered : speaker.logged.beep device with ⟨cause | done, next⟩
      all_goals
        have logged := speaker.logged_beep device
        rw [answered] at logged
        simp only [TickState.act, answered]
      · exact .call .beep logged fun _ => rfl
      · exact .call .beep (by rw [sound]; exact logged)
          fun failed => absurd (failed.symm.trans sound) Bool.false_ne_true
  | stopping => exact .call .stop rfl fun _ => rfl

theorem act_mute {tick : TickState (State × List Asked)} (sound : tick.outcome.isOk = true) :
    (tick.act .mute).device = tick.device ∧ (tick.act .mute).outcome.isOk = true := by
  obtain ⟨phase, timer, device, outcome⟩ := tick
  cases phase with
  | reading | beeping | lowering | finished => exact ⟨rfl, sound⟩
  | stopping => exact ⟨rfl, rfl⟩

theorem kept_act (speaker : Speaker State) {tick : TickState (State × List Asked)} {muted : Bool}
    (sound : tick.outcome.isOk = true) (kept : Kept muted tick.device.2) :
    let next := tick.act (if muted then .mute else speaker.logged)
    Kept (muted || !next.outcome.isOk) next.device.2 ∧
      (next.phase ≠ .finished → next.outcome.isOk = true) := by
  cases muted with
  | true =>
      obtain ⟨same, soundThen⟩ := act_mute sound
      refine ⟨?_, fun _ => soundThen⟩
      change Kept true (tick.act .mute).device.2
      rw [same]
      exact kept
  | false =>
      obtain ⟨all⟩ := kept
      intro next
      have logs : Logs tick next := logs_act speaker sound
      generalize next = next at logs ⊢
      cases logs with
      | nothing same soundThen =>
          rw [same, soundThen]
          exact ⟨.playing all, fun _ => rfl⟩
      | call asked logged failing =>
          rw [logged]
          cases succeeded : next.outcome.isOk with
          | true => exact ⟨.playing (sound_concat all), fun _ => rfl⟩
          | false => exact ⟨.muted all, fun more => absurd (failing succeeded) more⟩

/-- The speaker has been treated as playback treats it. -/
inductive Tended : PlaybackThread (State × List Asked) → Prop where
  | going {thread : PlaybackThread (State × List Asked)} (more : thread.stage ≠ .ended)
      (sound : thread.tick.outcome.isOk = true) (kept : Kept thread.muted thread.tick.device.2) :
      Tended thread
  | finished {thread : PlaybackThread (State × List Asked)} (ended : thread.stage = .ended)
      (complete : Complete thread.tick.device.2) : Tended thread

theorem tended_act {speaker : Speaker State} {thread : PlaybackThread (State × List Asked)}
    (tended : Tended thread) : Tended (thread.act speaker.logged) := by
  obtain ⟨stage, tick, muted, closed⟩ := thread
  cases tended with
  | finished ended complete =>
      cases ended
      exact .finished rfl complete
  | going more sound kept =>
      cases stage with
      | ended => exact absurd rfl more
      | pausing =>
          cases closed with
          | false => exact .going nofun sound kept
          | true =>
              refine .finished rfl ?_
              cases muted with
              | true => exact kept.complete
              | false =>
                  obtain ⟨all⟩ := kept
                  exact .stopped all
      | ticking =>
          obtain ⟨keptThen, soundThen⟩ := kept_act speaker sound kept
          by_cases finished :
              (tick.act (if muted then .mute else speaker.logged)).phase = .finished
          · rw [act_of_finished finished]
            exact .going nofun rfl keptThen
          · have still := soundThen finished
            rw [still, Bool.not_true, Bool.or_false] at keptThen
            rw [act_of_unfinished finished]
            exact .going nofun still keptThen

theorem tended_play {speaker : Speaker State} {thread : PlaybackThread (State × List Asked)}
    (tended : Tended thread) (turns : List PlaybackTurn) :
    Tended (thread.play speaker.logged turns) := by
  induction turns generalizing thread with
  | nil => exact tended
  | cons turn turns ih =>
      refine ih ?_
      cases turn with
      | act => exact tended_act tended
      | write _ | close =>
          cases tended with
          | going more sound kept => exact .going more sound kept
          | finished ended complete => exact .finished ended complete

/-! ## The end -/

/-- The actions that are left at most until a tick is finished. -/
def phaseAhead : TickPhase → Nat
  | .reading => 4
  | .beeping => 3
  | .lowering => 2
  | .stopping | .finished => 1

/-- The actions that are left at most until a closed playback has ended. -/
def endAhead (thread : PlaybackThread State) : Nat :=
  match thread.stage with
  | .ended => 0
  | .pausing => 1
  | .ticking => phaseAhead thread.tick.phase + 1

theorem phaseAhead_bounds (phase : TickPhase) : 1 ≤ phaseAhead phase ∧ phaseAhead phase ≤ 4 := by
  cases phase <;> decide

theorem endAhead_le (thread : PlaybackThread State) : thread.endAhead ≤ 5 := by
  have bounds := phaseAhead_bounds thread.tick.phase
  rw [endAhead]
  split <;> omega

theorem phaseAhead_act (speaker : Speaker State) (tick : TickState State) :
    (tick.act speaker).phase = .finished ∨
      phaseAhead (tick.act speaker).phase < phaseAhead tick.phase := by
  obtain ⟨phase, timer, device, outcome⟩ := tick
  cases phase with
  | reading =>
      refine .inr ?_
      simp only [TickState.act]
      split <;> decide
  | beeping =>
      simp only [TickState.act]
      split
      · exact .inr (Nat.lt_succ_self 2)
      · exact .inl rfl
  | lowering =>
      simp only [TickState.act]
      split
      · exact .inr (by decide)
      · exact .inl rfl
  | stopping | finished => exact .inl rfl

theorem endAhead_act (speaker : Speaker State) {thread : PlaybackThread State}
    (closed : thread.closed = true) :
    (thread.act speaker).endAhead ≤ thread.endAhead - 1 := by
  obtain ⟨stage, tick, muted, _⟩ := thread
  cases closed
  cases stage with
  | pausing | ended => exact Nat.le_refl 0
  | ticking =>
      have bounds := phaseAhead_bounds tick.phase
      have fewer := phaseAhead_act (if muted then .mute else speaker) tick
      by_cases finished : (tick.act (if muted then .mute else speaker)).phase = .finished
      · rw [act_of_finished finished]
        exact bounds.1
      · rw [act_of_unfinished finished]
        exact fewer.resolve_left finished

theorem closed_take (speaker : Speaker State) {thread : PlaybackThread State}
    (closed : thread.closed = true) (turn : PlaybackTurn) :
    (thread.take speaker turn).closed = true := by
  cases turn with
  | write _ => exact closed
  | close => rfl
  | act =>
      simp only [take, act]
      split
      · rw [if_pos closed]
        exact closed
      · split <;> exact closed
      · exact closed

theorem closed_play (speaker : Speaker State) {thread : PlaybackThread State}
    {turns : List PlaybackTurn} (closing : thread.closed = true ∨ .close ∈ turns) :
    (thread.play speaker turns).closed = true := by
  induction turns generalizing thread with
  | nil => exact closing.resolve_right nofun
  | cons turn turns ih =>
      refine ih ?_
      rcases closing with closed | among
      · exact .inl (closed_take speaker closed turn)
      · cases among with
        | head => exact .inl rfl
        | tail _ later => exact .inr later

theorem ended_of_acts {speaker : Speaker State} {thread : PlaybackThread State}
    (closed : thread.closed = true) {turns : List PlaybackTurn}
    (enough : thread.endAhead ≤ turns.count .act) :
    (thread.play speaker turns).stage = .ended := by
  induction turns generalizing thread with
  | nil =>
      obtain ⟨stage, tick, muted, closed⟩ := thread
      cases stage with
      | ended => rfl
      | pausing | ticking => exact absurd enough (Nat.not_succ_le_zero _)
  | cons turn turns ih =>
      refine ih (closed_take speaker closed turn) ?_
      cases turn with
      | act =>
          have fewer := endAhead_act speaker closed
          rw [List.count_cons_self] at enough
          exact Nat.le_trans fewer (Nat.sub_le_of_le_add enough)
      | write _ | close => exact enough

theorem play_append (speaker : Speaker State) (thread : PlaybackThread State)
    (earlier later : List PlaybackTurn) :
    thread.play speaker (earlier ++ later) = (thread.play speaker earlier).play speaker later :=
  List.foldl_append

/-! ## Whole ticks -/

theorem act_finished (speaker : Speaker State) {tick : TickState State}
    (finished : tick.phase = .finished) : tick.act speaker = tick := by
  rw [TickState.act, finished]

/-- However many steps a tick takes until it is finished, playback goes through them and
then pauses. -/
theorem acts_of_steps {speaker : Speaker State} {tick : TickState State} {muted closed : Bool}
    {steps : Nat} {last : TickState State}
    (made : (TickState.act (if muted then .mute else speaker))^[steps] tick = last)
    (more : tick.phase ≠ .finished) (finished : last.phase = .finished) :
    ∃ acts, play speaker ⟨.ticking, tick, muted, closed⟩ (List.replicate acts .act) =
      ⟨.pausing, { timer := last.timer, device := last.device },
        muted || !last.outcome.isOk, closed⟩ := by
  induction steps generalizing tick with
  | zero =>
      cases made
      exact absurd finished more
  | succ steps ih =>
      rw [Function.iterate_succ_apply] at made
      by_cases ready : (tick.act (if muted then .mute else speaker)).phase = .finished
      · rw [Function.iterate_fixed (act_finished _ ready)] at made
        cases made
        exact ⟨1, act_of_finished ready⟩
      · obtain ⟨acts, played⟩ := ih made ready
        refine ⟨acts + 1, ?_⟩
        rw [List.replicate_succ, ← played, ← act_of_unfinished ready]
        rfl

/-- A thread between two ticks. -/
def between (playback : Playback State) : PlaybackThread State :=
  { tick := { timer := playback.timer, device := playback.device }, muted := playback.muted }

theorem acts_of_cycle (speaker : Speaker State) (playback : Playback State) :
    ∃ acts, (between playback).play speaker (List.replicate acts .act) =
      between (playback.cycle speaker) := by
  obtain ⟨timer, device, muted⟩ := playback
  let mine := if muted then .mute else speaker
  obtain ⟨⟨phase, lowered, next, outcome⟩, made, finished, result⟩ :
      ∃ last, (TickState.act mine)^[4] { timer, device } = last ∧ last.phase = .finished ∧
        (last.outcome, last.timer, last.device) = timer.tick mine device :=
    ⟨_, rfl, TickState.act_four mine timer device⟩
  obtain ⟨acts, played⟩ := acts_of_steps made nofun finished
  refine ⟨acts + 1, ?_⟩
  rw [List.replicate_succ]
  refine played.trans ?_
  rw [Playback.cycle_eq, Playback.current, ← result]
  rfl

theorem acts_of_run (speaker : Speaker State) (playback : Playback State) (ticks : Nat) :
    ∃ acts, (between playback).play speaker (List.replicate acts .act) =
      between (playback.run speaker ticks) := by
  induction ticks generalizing playback with
  | zero => exact ⟨0, rfl⟩
  | succ ticks ih =>
      obtain ⟨first, cycled⟩ := acts_of_cycle speaker playback
      obtain ⟨rest, made⟩ := ih (playback.cycle speaker)
      refine ⟨first + rest, ?_⟩
      rw [← List.replicate_append_replicate, play_append, cycled, made, Playback.run]

/-! ## All endings -/

/-- A playback that is closed ends, whatever the machine writes meanwhile, and leaves its
speaker stopped unless the last two calls of the speaker are a beep and a beep that fails. -/
theorem stopped_unless_cut_off (speaker : Speaker State) (timer : SoundTimer) (device : State) :
    let first := start timer (device, [])
    (∀ turns, (first.play speaker.logged turns).stage = .ended →
      LeftSilentUnlessCutOff (first.play speaker.logged turns).tick.device.2) ∧
    (∀ turns later, .close ∈ turns → 5 ≤ later.count .act →
      (first.play speaker.logged (turns ++ later)).stage = .ended) ∧
    ∀ ticks,
      let left := (Playback.run speaker.logged ⟨timer, (device, []), false⟩ ticks).finish
        speaker.logged
      LeftSilentUnlessCutOff left.2 ∧
        left.1 = (Playback.run speaker ⟨timer, device, false⟩ ticks).finish speaker := by
  intro first
  have tended : Tended first := .going nofun rfl (.playing nofun)
  have ending : ∀ turns, (first.play speaker.logged turns).stage = .ended →
      LeftSilentUnlessCutOff (first.play speaker.logged turns).tick.device.2 := by
    intro turns ended
    cases tended_play tended turns with
    | going more _ _ => exact absurd ended more
    | finished _ complete => exact complete.leftSilentUnlessCutOff
  refine ⟨ending, ?_, ?_⟩
  · intro turns later closing enough
    rw [play_append]
    have closed : (first.play speaker.logged turns).closed = true :=
      closed_play speaker.logged (.inr closing)
    exact ended_of_acts closed (Nat.le_trans (endAhead_le _) enough)
  · intro ticks
    obtain ⟨acts, made⟩ := acts_of_run speaker.logged ⟨timer, (device, []), false⟩ ticks
    have left := ending (List.replicate acts .act ++ [.close, .act])
    rw [play_append, show first = between ⟨timer, (device, []), false⟩ from rfl, made] at left
    refine ⟨left rfl, ?_⟩
    rw [Playback.finish_unlogged, Playback.unlogged_run]
    rfl

/-- The machine writes between a beep and its count. The stop that follows fails, so the speaker
is not stopped once more at the end. -/
theorem stopped_unless_cut_off_failing_stop :
    let speaker := Speaker.recorder (some .stop)
    let first := start ⟨7⟩ ([], [])
    let turns := [.act, .act, .act, .write 1, .act, .act, .write 9, .close]
    (first.play speaker.logged turns).tick.device.2 = [⟨.beep, true⟩, ⟨.stop, false⟩] ∧
      (first.play speaker.logged (turns ++ [.act])).stage = .ended ∧
      LeftSilentUnlessCutOff (first.play speaker.logged (turns ++ [.act])).tick.device.2 ∧
      .close ∈ turns ∧
      (first.play speaker.logged (turns ++ List.replicate 5 .act)).stage = .ended := by
  obtain ⟨left, ends, -⟩ := stopped_unless_cut_off (Speaker.recorder (some .stop)) ⟨7⟩ []
  exact ⟨by decide, by decide, left _ (by decide), by decide, ends _ _ (by decide) (by decide)⟩

end PlaybackThread

/-- A speaker of which so many beeps succeed. -/
def Speaker.wearing : Speaker Nat where
  beep
    | 0 => (.error (.device "worn out"), 0)
    | left + 1 => (.ok (), left)
  stop left := (.ok (), left)

/-- A speaker whose second beep fails is never stopped. -/
theorem Playback.not_always_stopped :
    ¬ ∀ (State : Type) (speaker : Speaker State) (timer : SoundTimer) (device : State)
        (ticks : Nat),
      let left := (Playback.run speaker.logged ⟨timer, (device, []), false⟩ ticks).finish
        speaker.logged
      ⟨.beep, true⟩ ∈ left.2 → Asked.Stopped left.2 := by
  intro always
  have stopped : Asked.Stopped ([⟨.beep, true⟩] ++ [⟨.beep, false⟩]) :=
    always Nat Speaker.wearing ⟨2⟩ 1 2 (by decide)
  rw [Asked.stopped_failedBeep, ← List.nil_append [_], Asked.stopped_concat] at stopped
  rcases stopped with stop | ⟨other, -⟩
  · cases stop
  · exact other rfl

end ChipEight
