import ChipEight.Proofs.Sound.Ending

/-!
# What a failing speaker costs the timer

A tick counts the timer down unless its beep fails, and playback gives its speaker up at the first
call that fails. So a speaker can keep the timer from being counted down in one tick at most,
whatever pattern its failures follow.
-/

set_option autoImplicit false

namespace ChipEight

namespace Asked

/-- How many ticks have left the timer as it was because of a beep that has failed. -/
def ticksLost (log : List Asked) : Nat := if ⟨.beep, false⟩ ∈ log then 1 else 0

theorem ticksLost_of_sound {log : List Asked} (sound : ∀ asked ∈ log, asked.succeeded = true) :
    ticksLost log = 0 := by
  refine if_neg fun among => ?_
  cases sound _ among

theorem ticksLost_append_of_not_mem {log calls : List Asked} (absent : ⟨.beep, false⟩ ∉ calls) :
    ticksLost (log ++ calls) = ticksLost log := by
  simp [ticksLost, absent]

theorem ticksLost_failedBeep (log : List Asked) : ticksLost (log ++ [⟨.beep, false⟩]) = 1 :=
  if_pos (List.mem_append_right log (.head []))

theorem Complete.exists_last {log : List Asked} (complete : Complete log) :
    ∃ earlier last, log = earlier ++ [last] ∧ ∀ asked ∈ earlier, asked.succeeded = true := by
  cases complete with
  | stopped sound => exact ⟨_, _, rfl, sound⟩
  | broken sound => exact ⟨_, _, rfl, sound⟩

theorem Complete.sound_dropLast {log : List Asked} (complete : Complete log) :
    ∀ asked ∈ log.dropLast, asked.succeeded = true := by
  obtain ⟨earlier, last, rfl, sound⟩ := complete.exists_last
  rw [List.dropLast_concat]
  exact sound

theorem Complete.failures_le {log : List Asked} (complete : Complete log) :
    log.countP (fun asked => !asked.succeeded) ≤ 1 := by
  obtain ⟨earlier, last, rfl, sound⟩ := complete.exists_last
  have none : earlier.countP (fun asked => !asked.succeeded) = 0 := by
    apply List.countP_eq_zero.mpr
    intro asked among
    simp [sound asked among]
  rw [List.countP_append, none, Nat.zero_add]
  exact List.countP_le_length

theorem Kept.sound {log : List Asked} (kept : Kept false log) :
    ∀ asked ∈ log, asked.succeeded = true := by
  cases kept with
  | playing sound => exact sound

theorem Kept.muted_of_failure {muted : Bool} {log : List Asked} (kept : Kept muted log)
    (failure : ∃ asked ∈ log, asked.succeeded = false) : muted = true := by
  cases kept with
  | muted _ => rfl
  | playing sound =>
      obtain ⟨asked, among, failed⟩ := failure
      cases (sound asked among).symm.trans failed

end Asked

namespace Playback

open Asked

variable {State : Type}

/-! ## Silence -/

theorem decrement_of_zero {timer : SoundTimer} (silent : timer.value = 0) :
    timer.decrement = timer := if_pos silent

theorem cycle_of_muted (speaker : Speaker State) {playback : Playback State}
    (muted : playback.muted = true) :
    playback.cycle speaker = { playback with timer := playback.timer.decrement } := by
  have mine : playback.current speaker = .mute := if_pos muted
  rw [cycle, mine]
  by_cases silent : playback.timer.value = 0
  · simp [SoundTimer.tick, Speaker.mute, silent, decrement_of_zero]
  · by_cases last : playback.timer.decrement.value = 0 <;>
      simp [SoundTimer.tick, Speaker.mute, silent, last]

theorem run_of_muted (speaker : Speaker State) {playback : Playback State}
    (muted : playback.muted = true) (ticks : Nat) :
    (playback.run speaker ticks).device = playback.device ∧
      (playback.run speaker ticks).muted = true := by
  induction ticks generalizing playback with
  | zero => exact ⟨rfl, muted⟩
  | succ ticks ih =>
      rw [run, cycle_of_muted speaker muted]
      exact ih muted

theorem finish_of_muted (speaker : Speaker State) {playback : Playback State}
    (muted : playback.muted = true) : playback.finish speaker = playback.device := by
  have mine : playback.current speaker = .mute := if_pos muted
  rw [finish, mine]
  rfl

theorem run_add (speaker : Speaker State) (playback : Playback State) (earlier later : Nat) :
    playback.run speaker (earlier + later) = (playback.run speaker earlier).run speaker later := by
  induction earlier generalizing playback with
  | zero => rw [Nat.zero_add, run]
  | succ earlier ih => rw [Nat.succ_add, run, run, ih]

/-! ## One tick -/

/-- What one tick of playback can do. -/
inductive Cycled (before after : Playback (State × List Asked)) : Prop where
  | silent (muted : before.muted = true)
      (same : after = { before with timer := before.timer.decrement })
  | counted {calls : List Asked} (playing : before.muted = false)
      (sound : ∀ asked ∈ calls, asked.succeeded = true)
      (timer : after.timer = before.timer.decrement)
      (log : after.device.2 = before.device.2 ++ calls) (still : after.muted = false)
  | stopFailed {calls : List Asked} (playing : before.muted = false)
      (sound : ∀ asked ∈ calls, asked.succeeded = true)
      (timer : after.timer = before.timer.decrement)
      (log : after.device.2 = before.device.2 ++ calls ++ [⟨.stop, false⟩])
      (muted : after.muted = true)
  | beepFailed (playing : before.muted = false) (running : before.timer.value ≠ 0)
      (timer : after.timer = before.timer)
      (log : after.device.2 = before.device.2 ++ [⟨.beep, false⟩]) (muted : after.muted = true)

/-- A tick ends with a stop, after calls that have all succeeded. -/
theorem cycled_of_stop {before : Playback (State × List Asked)} {calls : List Asked}
    (playing : before.muted = false) (sound : ∀ asked ∈ calls, asked.succeeded = true)
    (outcome : Except DeviceFailure Unit) (device : State) :
    Cycled before
      ⟨before.timer.decrement, (device, before.device.2 ++ calls ++ [⟨.stop, outcome.isOk⟩]),
        !outcome.isOk⟩ := by
  cases outcome with
  | error cause => exact .stopFailed playing sound rfl rfl rfl
  | ok done => exact .counted playing (sound_concat sound) rfl (List.append_assoc _ _ _) rfl

theorem cycled_of_playing (speaker : Speaker State) {playback : Playback (State × List Asked)}
    (playing : playback.muted = false) : Cycled playback (playback.cycle speaker.logged) := by
  obtain ⟨timer, ⟨device, log⟩, muted⟩ := playback
  cases playing
  rw [cycle_eq]
  change Cycled _ (let ticked := timer.tick speaker.logged (device, log)
    ⟨ticked.2.1, ticked.2.2, !ticked.1.isOk⟩)
  by_cases silent : timer.value = 0
  · have ticked : timer.tick speaker.logged (device, log) =
        ((speaker.stop device).1, timer.decrement, (speaker.stop device).2,
          log ++ [] ++ [⟨.stop, (speaker.stop device).1.isOk⟩]) := by
      simp [SoundTimer.tick, Speaker.logged, silent, decrement_of_zero]
    rw [ticked]
    exact cycled_of_stop rfl (List.forall_mem_nil _) _ _
  · rcases sounded : speaker.beep device with ⟨cause | done, after⟩
    · have ticked : timer.tick speaker.logged (device, log) =
          (.error cause, timer, after, log ++ [⟨.beep, false⟩]) := by
        simp [SoundTimer.tick, Speaker.logged, silent, sounded, Except.isOk, Except.toBool]
      rw [ticked]
      exact .beepFailed rfl silent rfl rfl rfl
    · by_cases last : timer.decrement.value = 0
      · have ticked : timer.tick speaker.logged (device, log) =
            ((speaker.stop after).1, timer.decrement, (speaker.stop after).2,
              log ++ [⟨.beep, true⟩] ++ [⟨.stop, (speaker.stop after).1.isOk⟩]) := by
          simp [SoundTimer.tick, Speaker.logged, silent, sounded, last, Except.isOk, Except.toBool]
        rw [ticked]
        exact cycled_of_stop rfl (by simp) _ _
      · have ticked : timer.tick speaker.logged (device, log) =
            (.ok (), timer.decrement, after, log ++ [⟨.beep, true⟩]) := by
          simp [SoundTimer.tick, Speaker.logged, silent, sounded, last, Except.isOk, Except.toBool]
        rw [ticked]
        exact .counted rfl (by simp) rfl rfl rfl

theorem cycled (speaker : Speaker State) (playback : Playback (State × List Asked)) :
    Cycled playback (playback.cycle speaker.logged) := by
  cases muted : playback.muted with
  | true => exact .silent muted (cycle_of_muted speaker.logged muted)
  | false => exact cycled_of_playing speaker muted

/-! ## The tally -/

/-- What a playback that was started with this timer has come to after so many ticks. -/
structure Tally (timer : SoundTimer) (ticks : Nat) (playback : Playback (State × List Asked)) :
    Prop where
  kept : Kept playback.muted playback.device.2
  /-- A tick that was lost is one of the ticks. -/
  lost_le : ticksLost playback.device.2 ≤ ticks
  level : playback.timer.value.toNat =
    timer.value.toNat - min timer.value.toNat (ticks - ticksLost playback.device.2)

theorem Tally.start (timer : SoundTimer) (device : State) :
    Tally timer 0 ⟨timer, (device, []), false⟩ where
  kept := .playing nofun
  lost_le := Nat.le_refl 0
  level := by simp

/-- A tick that counts the timer down keeps the tally if it loses nothing. -/
theorem Tally.countedDown {timer : SoundTimer} {ticks : Nat}
    {playback after : Playback (State × List Asked)} (tally : Tally timer ticks playback)
    (kept : Kept after.muted after.device.2) (lowered : after.timer = playback.timer.decrement)
    (lost : ticksLost after.device.2 = ticksLost playback.device.2) :
    Tally timer (ticks + 1) after := by
  have fewer := tally.lost_le
  refine ⟨kept, lost ▸ Nat.le_succ_of_le fewer, ?_⟩
  have level := tally.level
  rw [lowered, lost, SoundTimer.toNat_decrement]
  omega

theorem Tally.cycle {timer : SoundTimer} {ticks : Nat} {playback : Playback (State × List Asked)}
    (tally : Tally timer ticks playback) (speaker : Speaker State) :
    Tally timer (ticks + 1) (playback.cycle speaker.logged) := by
  have cycled := cycled speaker playback
  have kept := tally.kept
  generalize playback.cycle speaker.logged = after at cycled ⊢
  cases cycled with
  | silent muted same =>
      subst same
      exact tally.countedDown kept rfl rfl
  | counted playing sound lowered log still =>
      have earlier := (playing ▸ kept).sound
      have all := List.forall_mem_append.mpr ⟨earlier, sound⟩
      refine tally.countedDown ?_ lowered ?_
      · rw [still, log]
        exact .playing all
      · rw [log, ticksLost_of_sound all, ticksLost_of_sound earlier]
  | stopFailed playing sound lowered log muted =>
      have earlier := (playing ▸ kept).sound
      have all := List.forall_mem_append.mpr ⟨earlier, sound⟩
      refine tally.countedDown ?_ lowered ?_
      · rw [muted, log]
        exact .muted all
      · rw [log, ticksLost_append_of_not_mem (by simp), ticksLost_of_sound all,
          ticksLost_of_sound earlier]
  | beepFailed playing running same log muted =>
      have earlier := (playing ▸ kept).sound
      have level := tally.level
      rw [ticksLost_of_sound earlier] at level
      refine ⟨?_, ?_, ?_⟩
      · rw [muted, log]
        exact .muted earlier
      · rw [log, ticksLost_failedBeep]
        exact Nat.le_add_left 1 ticks
      · rw [same, log, ticksLost_failedBeep]
        exact level

theorem Tally.run {timer : SoundTimer} {elapsed : Nat} {playback : Playback (State × List Asked)}
    (tally : Tally timer elapsed playback) (speaker : Speaker State) (ticks : Nat) :
    Tally timer (elapsed + ticks) (playback.run speaker.logged ticks) := by
  induction ticks generalizing elapsed playback with
  | zero => exact tally
  | succ ticks ih =>
      have later := ih (tally.cycle speaker)
      rw [Nat.add_assoc, Nat.add_comm 1] at later
      exact later

/-! ## The end -/

theorem Tally.finish {timer : SoundTimer} {ticks : Nat} {playback : Playback (State × List Asked)}
    (tally : Tally timer ticks playback) (speaker : Speaker State) :
    Complete (playback.finish speaker.logged).2 ∧
      playback.device.2 <+: (playback.finish speaker.logged).2 := by
  obtain ⟨lowered, device, muted⟩ := playback
  have kept := tally.kept
  cases muted with
  | true => exact ⟨kept.complete, List.prefix_rfl⟩
  | false => exact ⟨.stopped kept.sound, List.prefix_append _ _⟩

/-- However its calls fail, a speaker keeps the timer from being counted down in one tick at
most. At most one of its calls fails, the stop at the end included, and it receives none after
that. -/
theorem timer_despite_failures (speaker : Speaker State) (timer : SoundTimer) (device : State)
    (ticks : Nat) :
    let first : Playback (State × List Asked) := ⟨timer, (device, []), false⟩
    let played := first.run speaker.logged ticks
    let left := played.finish speaker.logged
    let plain := Playback.run speaker ⟨timer, device, false⟩ ticks
    plain.timer.value.toNat =
        timer.value.toNat - min timer.value.toNat (ticks - ticksLost played.device.2) ∧
      (played.unlogged = plain ∧ left.1 = plain.finish speaker) ∧
      (played.device.2 <+: left.2 ∧ left.2.countP (fun asked => !asked.succeeded) ≤ 1 ∧
        ∀ asked ∈ left.2.dropLast, asked.succeeded = true) ∧
      ((∃ asked ∈ played.device.2, asked.succeeded = false) → ∀ more,
        let later := first.run speaker.logged (ticks + more)
        later.device = played.device ∧ later.finish speaker.logged = played.device) := by
  intro first played left plain
  have same : played.unlogged = plain := unlogged_run speaker first ticks
  have tally : Tally timer ticks played := by
    have run := (Tally.start timer device).run speaker ticks
    rw [Nat.zero_add] at run
    exact run
  obtain ⟨complete, grown⟩ := tally.finish speaker
  refine ⟨?_, ⟨same, ?_⟩, ⟨grown, complete.failures_le, complete.sound_dropLast⟩, ?_⟩
  · rw [← same]
    exact tally.level
  · rw [← same]
    exact finish_unlogged speaker played
  · intro failure more later
    have muted := tally.kept.muted_of_failure failure
    obtain ⟨kept, still⟩ := run_of_muted speaker.logged muted more
    have split : later = played.run speaker.logged more := run_add speaker.logged first ticks more
    rw [split]
    exact ⟨kept, (finish_of_muted speaker.logged still).trans kept⟩

/-- The third beep fails, so four ticks take three off the timer. -/
theorem timer_despite_failures_worn_out :
    let first : Playback (Nat × List Asked) := ⟨⟨5⟩, (2, []), false⟩
    let played := first.run Speaker.wearing.logged 4
    played.device.2 = [⟨.beep, true⟩, ⟨.beep, true⟩, ⟨.beep, false⟩] ∧
      (Playback.run Speaker.wearing ⟨⟨5⟩, 2, false⟩ 4).timer.value.toNat = 5 - min 5 (4 - 1) ∧
      ∀ more, (first.run Speaker.wearing.logged (4 + more)).device = played.device := by
  obtain ⟨level, -, -, givenUp⟩ := timer_despite_failures Speaker.wearing ⟨5⟩ 2 4
  refine ⟨by decide, level, fun more => ?_⟩
  exact (givenUp ⟨⟨.beep, false⟩, by decide, rfl⟩ more).1

end Playback

end ChipEight
