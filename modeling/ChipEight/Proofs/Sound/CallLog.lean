import ChipEight.Sound.Playback
import Mathlib.Data.List.Basic

/-!
# Calls of a speaker

A speaker can be made to write down all calls that it receives and whether they have
succeeded. The log of a speaker that is given up at its first failure shows whether it has been
left sounding.
-/

set_option autoImplicit false

namespace ChipEight

/-- A call that a speaker has received. -/
structure Asked where
  call : SpeakerCall
  succeeded : Bool
deriving DecidableEq, Repr

namespace Speaker

variable {State : Type}

/-- A speaker together with all calls that it has received, oldest first. -/
def logged (speaker : Speaker State) : Speaker (State × List Asked) where
  beep state :=
    let (outcome, next) := speaker.beep state.1
    (outcome, next, state.2 ++ [⟨.beep, outcome.isOk⟩])
  stop state :=
    let (outcome, next) := speaker.stop state.1
    (outcome, next, state.2 ++ [⟨.stop, outcome.isOk⟩])

theorem logged_beep (speaker : Speaker State) (state : State × List Asked) :
    (speaker.logged.beep state).2.2 =
      state.2 ++ [⟨.beep, (speaker.logged.beep state).1.isOk⟩] := rfl

/-- Both speakers do the same, apart from what the first one writes down. -/
structure Follows (writing : Speaker (State × List Asked)) (speaker : Speaker State) : Prop where
  beep : ∀ state, speaker.beep state.1 = ((writing.beep state).1, (writing.beep state).2.1)
  stop : ∀ state, speaker.stop state.1 = ((writing.stop state).1, (writing.stop state).2.1)

theorem follows_logged (speaker : Speaker State) : Follows speaker.logged speaker :=
  ⟨fun _ => rfl, fun _ => rfl⟩

theorem follows_mute : Follows (.mute : Speaker (State × List Asked)) (.mute : Speaker State) :=
  ⟨fun _ => rfl, fun _ => rfl⟩

theorem Follows.tick {writing : Speaker (State × List Asked)} {speaker : Speaker State}
    (follows : Follows writing speaker) (timer : SoundTimer) (state : State × List Asked) :
    let ticked := timer.tick writing state
    timer.tick speaker state.1 = (ticked.1, ticked.2.1, ticked.2.2.1) := by
  by_cases silent : timer.value = 0
  · have stopped := follows.stop state
    simp [SoundTimer.tick, silent, stopped]
  · have beeped := follows.beep state
    rcases sounded : writing.beep state with ⟨cause | done, next⟩
    all_goals rw [sounded] at beeped
    · simp [SoundTimer.tick, silent, beeped, sounded]
    · have stopped := follows.stop next
      by_cases last : timer.decrement.value = 0 <;>
        simp [SoundTimer.tick, silent, beeped, sounded, last, stopped]

end Speaker

namespace Playback

variable {State : Type}

def unlogged (playback : Playback (State × List Asked)) : Playback State :=
  { timer := playback.timer, device := playback.device.1, muted := playback.muted }

theorem follows_current (speaker : Speaker State) (playback : Playback (State × List Asked)) :
    Speaker.Follows (playback.current speaker.logged) (playback.unlogged.current speaker) := by
  obtain ⟨timer, device, _ | _⟩ := playback
  · exact speaker.follows_logged
  · exact Speaker.follows_mute

theorem cycle_eq (speaker : Speaker State) (playback : Playback State) :
    playback.cycle speaker =
      let ticked := playback.timer.tick (playback.current speaker) playback.device
      ⟨ticked.2.1, ticked.2.2, playback.muted || !ticked.1.isOk⟩ := by
  rw [cycle]
  rcases playback.timer.tick (playback.current speaker) playback.device
    with ⟨cause | done, lowered, next⟩
  · exact congrArg (Playback.mk lowered next) (Bool.or_true _).symm
  · exact congrArg (Playback.mk lowered next) (Bool.or_false _).symm

theorem unlogged_cycle (speaker : Speaker State) (playback : Playback (State × List Asked)) :
    (playback.cycle speaker.logged).unlogged = playback.unlogged.cycle speaker := by
  have ticked : playback.unlogged.timer.tick (playback.unlogged.current speaker)
      playback.unlogged.device = _ :=
    (follows_current speaker playback).tick playback.timer playback.device
  rw [cycle_eq, cycle_eq, ticked]
  rfl

theorem unlogged_run (speaker : Speaker State) (playback : Playback (State × List Asked))
    (ticks : Nat) :
    (playback.run speaker.logged ticks).unlogged = playback.unlogged.run speaker ticks := by
  induction ticks generalizing playback with
  | zero => rfl
  | succ ticks ih => rw [run, run, ih, unlogged_cycle]

/-- Writing its calls down makes no difference to a speaker. -/
theorem finish_unlogged (speaker : Speaker State) (playback : Playback (State × List Asked)) :
    (playback.finish speaker.logged).1 = playback.unlogged.finish speaker := by
  have stopped := (follows_current speaker playback).stop playback.device
  exact (congrArg Prod.snd stopped).symm

end Playback

namespace Asked

/-- A stop has come after every beep that has succeeded. -/
def Stopped (log : List Asked) : Prop :=
  ∃ earlier succeeded later, log = earlier ++ ⟨.stop, succeeded⟩ :: later ∧ ⟨.beep, true⟩ ∉ later

/-- Nothing but the last call can have failed, and a speaker is muted once that has. -/
inductive Kept : (muted : Bool) → List Asked → Prop where
  | playing {log : List Asked} (sound : ∀ asked ∈ log, asked.succeeded = true) : Kept false log
  | muted {log : List Asked} {call : SpeakerCall}
      (sound : ∀ asked ∈ log, asked.succeeded = true) : Kept true (log ++ [⟨call, false⟩])

/-- What a speaker has received when playback has ended. -/
inductive Complete : List Asked → Prop where
  | stopped {log : List Asked} {succeeded : Bool}
      (sound : ∀ asked ∈ log, asked.succeeded = true) : Complete (log ++ [⟨.stop, succeeded⟩])
  | broken {log : List Asked} (sound : ∀ asked ∈ log, asked.succeeded = true) :
      Complete (log ++ [⟨.beep, false⟩])

theorem Kept.complete {log : List Asked} (kept : Kept true log) : Complete log := by
  cases kept with
  | @muted log call sound =>
      cases call with
      | beep => exact .broken sound
      | stop => exact .stopped sound

theorem sound_concat {log : List Asked} {call : SpeakerCall}
    (sound : ∀ asked ∈ log, asked.succeeded = true) :
    ∀ asked ∈ log ++ [⟨call, true⟩], asked.succeeded = true := by
  intro asked among
  rcases List.mem_append.mp among with earlier | last
  · exact sound asked earlier
  · rw [List.mem_singleton.mp last]

theorem not_stopped_nil : ¬ Stopped [] := by simp [Stopped]

theorem stopped_concat {log : List Asked} {asked : Asked} :
    Stopped (log ++ [asked]) ↔ asked.call = .stop ∨ asked ≠ ⟨.beep, true⟩ ∧ Stopped log := by
  constructor
  · rintro ⟨earlier, succeeded, later, split, silent⟩
    rcases List.eq_nil_or_concat' later with rfl | ⟨between, last, rfl⟩
    · have same : [asked] = [⟨.stop, succeeded⟩] := (List.append_inj' split rfl).2
      cases same
      exact .inl rfl
    · rw [← List.cons_append, ← List.append_assoc] at split
      obtain ⟨rfl, same⟩ := List.append_inj' split rfl
      cases same
      rw [List.mem_append, not_or] at silent
      exact .inr ⟨fun beep => silent.2 (List.mem_singleton.mpr beep.symm),
        earlier, succeeded, between, rfl, silent.1⟩
  · rintro (stop | ⟨quiet, earlier, succeeded, later, rfl, silent⟩)
    · exact ⟨log, asked.succeeded, [], by rw [← stop], nofun⟩
    · refine ⟨earlier, succeeded, later ++ [asked], ?_, ?_⟩
      · rw [List.append_assoc, List.cons_append]
      · rw [List.mem_append, not_or]
        exact ⟨silent, fun among => quiet (List.mem_singleton.mp among).symm⟩

/-- A beep has failed right after one that has succeeded, and nothing has come after. -/
def CutOff (log : List Asked) : Prop :=
  ∃ earlier, log = earlier ++ [⟨.beep, true⟩, ⟨.beep, false⟩]

theorem not_cutOff_stop (log : List Asked) (succeeded : Bool) :
    ¬ CutOff (log ++ [⟨.stop, succeeded⟩]) := by
  rintro ⟨earlier, split⟩
  have last := congrArg List.getLast? split
  simp at last

theorem stopped_failedBeep {log : List Asked} :
    Stopped (log ++ [⟨.beep, false⟩]) ↔ Stopped log := by
  rw [stopped_concat]
  simp

theorem cutOff_failedBeep {log : List Asked} :
    CutOff (log ++ [⟨.beep, false⟩]) ↔ ∃ earlier, log = earlier ++ [⟨.beep, true⟩] := by
  constructor
  · rintro ⟨earlier, split⟩
    rw [List.append_cons earlier] at split
    exact ⟨earlier, List.append_cancel_right split⟩
  · rintro ⟨earlier, rfl⟩
    exact ⟨earlier, List.append_assoc _ _ _⟩

theorem Complete.stopped_iff {log : List Asked} (complete : Complete log) :
    Stopped log ↔ ¬ CutOff log ∧ log ≠ [⟨.beep, false⟩] := by
  cases complete with
  | @stopped log succeeded sound =>
      refine iff_of_true (stopped_concat.mpr (.inl rfl)) ⟨not_cutOff_stop log succeeded, ?_⟩
      intro single
      have last := congrArg List.getLast? single
      simp at last
  | @broken log sound =>
      rw [stopped_failedBeep, cutOff_failedBeep]
      rcases List.eq_nil_or_concat' log with rfl | ⟨earlier, ⟨call, succeeded⟩, rfl⟩
      · exact iff_of_false not_stopped_nil fun ⟨_, other⟩ => other rfl
      · have answered : succeeded = true := sound _ (List.mem_append_right earlier (.head []))
        subst answered
        cases call with
        | beep => exact iff_of_false (by simp [stopped_concat]) fun ⟨whole, _⟩ => whole ⟨_, rfl⟩
        | stop =>
            refine iff_of_true (stopped_concat.mpr (.inl rfl)) ⟨?_, ?_⟩
            · rintro ⟨before, split⟩
              exact absurd (List.append_inj' split rfl).2 (by decide)
            · intro single
              have counted := congrArg List.length single
              simp at counted

/-- The log of a speaker that may be left sounding in one way only. -/
structure LeftSilentUnlessCutOff (log : List Asked) : Prop where
  /-- A speaker that has sounded. -/
  silenced : (⟨.beep, true⟩ ∈ log → Stopped log) ↔ ¬ CutOff log
  stopped : Stopped log ↔ ¬ CutOff log ∧ log ≠ [⟨.beep, false⟩]

theorem Complete.leftSilentUnlessCutOff {log : List Asked} (complete : Complete log) :
    LeftSilentUnlessCutOff log where
  silenced := by
    constructor
    · rintro silenced cut
      have sounded : ⟨.beep, true⟩ ∈ log := by
        obtain ⟨earlier, rfl⟩ := cut
        simp
      exact (complete.stopped_iff.mp (silenced sounded)).1 cut
    · intro whole sounded
      refine complete.stopped_iff.mpr ⟨whole, ?_⟩
      rintro rfl
      simp at sounded
  stopped := complete.stopped_iff

end Asked

end ChipEight
