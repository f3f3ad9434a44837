import ChipEight.Proofs.Sound.Ticks
import ChipEight.Sound.Playback

/-!
# Counting down among writes

Whatever the machine writes between the actions of the audio side, every value written last
is counted down in full, one for each tick. Once nothing but silence is written any more, the
speaker is stopped after as many ticks as the timer holds and one more.
-/

set_option autoImplicit false

namespace ChipEight.AudioSide

variable {State : Type}

/-! ## A value counted down -/

theorem lowerings_eq (side : AudioSide State) :
    side.lowerings = (side.finished.countP fun events => events.any TickEvent.lowers) +
      (side.doing.any TickEvent.lowers).toNat := by
  rw [lowerings, List.countP_append, List.countP_singleton]
  cases side.doing.any TickEvent.lowers <;> rfl

/-- A tick that is finished is one of the ticks already. -/
theorem lowerings_concat (tick next : TickState State) (finished : List (List TickEvent))
    (doing : List TickEvent) :
    lowerings ⟨next, [], finished ++ [doing]⟩ = lowerings ⟨tick, doing, finished⟩ := by
  rw [lowerings, lowerings, List.countP_append, List.countP_singleton]
  rfl

theorem lowerings_of_other {event : TickEvent} (other : event.lowers = false)
    (tick next : TickState State) (doing : List TickEvent)
    (finished : List (List TickEvent)) :
    lowerings ⟨next, doing ++ [event], finished⟩ = lowerings ⟨tick, doing, finished⟩ := by
  rw [lowerings_eq, lowerings_eq, List.any_append, List.any_cons, other, List.any_nil,
    Bool.or_false, Bool.or_false]

theorem lowerings_of_lower {doing : List TickEvent}
    (before : doing.any TickEvent.lowers = false) (tick next : TickState State)
    (finished : List (List TickEvent)) (timer : SoundTimer) (left : UInt8) :
    timer.decrement.value.toNat +
        lowerings ⟨next, doing ++ [.lower timer.value left], finished⟩ =
      timer.value.toNat + lowerings ⟨tick, doing, finished⟩ := by
  rw [SoundTimer.toNat_decrement, lowerings_eq, lowerings_eq]
  simp only [List.any_append, before, Bool.false_or, List.any_cons, List.any_nil, Bool.or_false,
    Bool.toNat_false]
  by_cases zero : timer.value = 0
  · simp [zero, TickEvent.lowers]
  · have positive : timer.value.toNat ≠ 0 := fun none => zero (UInt8.toNat_inj.mp none)
    simp only [TickEvent.lowers, zero, ne_eq, not_false_eq_true, decide_true, Bool.toNat_true]
    omega

/-- What an action takes off the timer is what the ticks have lowered it by. -/
theorem level_add_lowerings_act {speaker : Speaker State} {device : State}
    {side : AudioSide State} (steady : speaker.NeverFails device)
    (coherent : Coherent speaker device side) :
    (side.act speaker).level + (side.act speaker).lowerings = side.level + side.lowerings := by
  have acts := coherent.acts steady
  have underway := coherent.underway
  generalize side.act speaker = next at acts ⊢
  obtain ⟨⟨phase, timer, state, outcome⟩, doing, finished⟩ := side
  -- Only the action that counts down touches the timer, and nothing has been lowered before it.
  have before : phase = .lowering → doing.any TickEvent.lowers = false := by
    rintro rfl
    cases underway
    rfl
  cases acts with
  | findsSilence reading silent | findsSound reading running | beeps beeping =>
      exact congrArg (timer.value.toNat + ·) (lowerings_of_other rfl _ _ doing finished)
  | lowersToSilence lowering silent =>
      exact lowerings_of_lower (before lowering) _ _ finished timer 0
  | lowers lowering more =>
      rw [lowerings_concat ⟨phase, timer, state, outcome⟩]
      exact lowerings_of_lower (before lowering) _ _ finished timer _
  | stops stopping =>
      rw [lowerings_concat ⟨phase, timer, state, outcome⟩]
      exact congrArg (timer.value.toNat + ·) (lowerings_of_other rfl _ _ doing finished)

/-- How many ticks are finished, and how many more are to finish before nothing is left of
the value in the timer. -/
def ahead (side : AudioSide State) : Nat :=
  side.finished.length + side.level + if side.tick.phase = .stopping then 1 else 0

theorem ahead_act {speaker : Speaker State} {device : State} {side : AudioSide State}
    (steady : speaker.NeverFails device) (coherent : Coherent speaker device side) :
    (side.act speaker).level = 0 ∨ (side.act speaker).ahead ≤ side.ahead := by
  have acts := coherent.acts steady
  generalize side.act speaker = next at acts ⊢
  cases acts with
  | findsSilence reading silent => exact .inl (congrArg UInt8.toNat silent)
  | findsSound reading running => exact .inr (by simp [ahead, level, reading])
  | beeps beeping => exact .inr (by simp [ahead, level, beeping])
  | lowersToSilence lowering silent => exact .inl (congrArg UInt8.toNat silent)
  | lowers lowering more =>
      have left : side.tick.timer.decrement.value.toNat ≠ 0 :=
        fun none => more (UInt8.toNat_inj.mp none)
      have lowered := side.tick.timer.toNat_decrement
      refine .inr ?_
      simp only [ahead, level, lowering, List.length_append, List.length_singleton, reduceCtorEq,
        if_false]
      omega
  | stops stopping =>
      refine .inr ?_
      simp only [ahead, level, stopping, List.length_append, List.length_singleton, reduceCtorEq,
        if_true, if_false]
      omega

theorem level_act_le {speaker : Speaker State} {device : State} {side : AudioSide State}
    (steady : speaker.NeverFails device) (coherent : Coherent speaker device side) :
    (side.act speaker).level ≤ side.level := by
  have acts := coherent.acts steady
  generalize side.act speaker = next at acts ⊢
  cases acts with
  | findsSilence | findsSound | beeps | stops => exact Nat.le_refl _
  | lowersToSilence | lowers =>
      exact Nat.le_trans (Nat.le_of_eq side.tick.timer.toNat_decrement) (Nat.sub_le _ _)

/-- Without a write the ticks take off the timer all that it holds, one each. -/
theorem counted_down {speaker : Speaker State} {device : State} {side : AudioSide State}
    (steady : speaker.NeverFails device) (coherent : Coherent speaker device side)
    (acts : Nat) :
    let last := side.play speaker (List.replicate acts .act)
    last.level + last.lowerings = side.level + side.lowerings ∧ last.level ≤ side.level ∧
      (last.level = 0 ∨ last.ahead ≤ side.ahead) := by
  induction acts generalizing side with
  | zero => exact ⟨rfl, Nat.le_refl _, .inr (Nat.le_refl _)⟩
  | succ acts ih =>
      obtain ⟨conserved, fewer, rest⟩ := ih (coherent.act steady)
      have first := level_add_lowerings_act steady coherent
      have less := level_act_le steady coherent
      refine ⟨conserved.trans first, Nat.le_trans fewer less, ?_⟩
      -- A timer at zero stays there; until then no action moves the end further away.
      rcases ahead_act steady coherent with silent | closer
      · exact .inl (Nat.eq_zero_of_le_zero (Nat.le_trans fewer (Nat.le_of_eq silent)))
      · exact rest.imp_right fun further => Nat.le_trans further closer

/-! ## The end of the sound -/

/-- Nothing but silence is written any more. -/
def Quiet (turn : Turn) : Prop := turn = .act ∨ turn = .write 0

/-- The speaker is stopped, and the tick under way finds that there is nothing to be heard. -/
structure Settled (side : AudioSide State) : Prop where
  silent : side.level = 0
  phase : side.tick.phase = .reading ∨ side.tick.phase = .stopping
  stopped : side.calls.getLast? = some .stop

theorem Settled.take {speaker : Speaker State} {device : State} {side : AudioSide State}
    (steady : speaker.NeverFails device) (coherent : Coherent speaker device side)
    (settled : Settled side) {turn : Turn} (quiet : Quiet turn) :
    Settled (side.take speaker turn) := by
  obtain ⟨silent, phase, stopped⟩ := settled
  rcases quiet with rfl | rfl
  · have called := calls_act speaker side
    have acts := coherent.acts steady
    rw [AudioSide.take]
    generalize side.act speaker = next at acts called ⊢
    cases acts with
    | findsSilence reading zero =>
        refine ⟨silent, .inr rfl, ?_⟩
        rw [called, TickState.event?, reading]
        simpa [TickEvent.call?] using stopped
    | findsSound reading running => exact (running (UInt8.toNat_inj.mp silent)).elim
    | beeps beeping => simp [beeping] at phase
    | lowersToSilence lowering | lowers lowering => simp [lowering] at phase
    | stops stopping =>
        refine ⟨silent, .inl rfl, ?_⟩
        rw [called, TickState.event?, stopping]
        exact List.getLast?_concat
  · exact ⟨rfl, phase, stopped⟩

/-- How many ticks are finished, and how many more are to finish at most before the speaker
is stopped for good. -/
def stopAhead (side : AudioSide State) : Nat :=
  side.finished.length +
    if side.tick.phase = .stopping then side.level + 1 else max 1 side.level

theorem settled_or_stopAhead_act {speaker : Speaker State} {device : State}
    {side : AudioSide State} (steady : speaker.NeverFails device)
    (coherent : Coherent speaker device side) :
    Settled (side.act speaker) ∨ (side.act speaker).stopAhead ≤ side.stopAhead := by
  have called := calls_act speaker side
  have acts := coherent.acts steady
  generalize side.act speaker = next at acts called ⊢
  cases acts with
  | findsSilence reading silent =>
      refine .inr ?_
      simp [stopAhead, level, reading, silent]
  | findsSound reading running => exact .inr (by simp [stopAhead, level, reading])
  | beeps beeping => exact .inr (by simp [stopAhead, level, beeping])
  | lowersToSilence lowering silent =>
      refine .inr ?_
      simp only [stopAhead, level, lowering, silent, reduceCtorEq, if_true, if_false,
        UInt8.toNat_zero]
      omega
  | lowers lowering more =>
      have left : side.tick.timer.decrement.value.toNat ≠ 0 :=
        fun none => more (UInt8.toNat_inj.mp none)
      have lowered := side.tick.timer.toNat_decrement
      refine .inr ?_
      simp only [stopAhead, level, lowering, List.length_append, List.length_singleton,
        reduceCtorEq, if_false]
      omega
  | stops stopping =>
      by_cases silent : side.level = 0
      · refine .inl ⟨silent, .inl rfl, ?_⟩
        rw [called, TickState.event?, stopping]
        exact List.getLast?_concat
      · refine .inr ?_
        simp only [stopAhead, level, stopping, List.length_append, List.length_singleton,
          reduceCtorEq, if_true, if_false] at silent ⊢
        omega

theorem stopAhead_write_le (side : AudioSide State) :
    stopAhead { side with tick := side.tick.write 0 } ≤ side.stopAhead := by
  have none : (0 : UInt8).toNat = 0 := rfl
  simp only [stopAhead, level, TickState.write, none]
  split <;> omega

theorem settled_or_stopAhead_play {speaker : Speaker State} {device : State}
    {side : AudioSide State} (steady : speaker.NeverFails device)
    (coherent : Coherent speaker device side) {bound : Nat}
    (near : Settled side ∨ side.stopAhead ≤ bound) {later : List Turn}
    (quiet : ∀ turn ∈ later, Quiet turn) :
    Settled (side.play speaker later) ∨ (side.play speaker later).stopAhead ≤ bound := by
  induction later generalizing side with
  | nil => exact near
  | cons turn rest ih =>
      have first : Quiet turn := quiet turn List.mem_cons_self
      -- What has settled stays so; until then no turn moves the stop further away.
      refine ih (coherent.take steady turn) ?_
        fun other among => quiet other (List.mem_cons_of_mem _ among)
      rcases near with settled | near
      · exact .inl (settled.take steady coherent first)
      · rcases first with rfl | rfl
        · exact (settled_or_stopAhead_act steady coherent).imp_right
            fun closer => Nat.le_trans closer near
        · exact .inr (Nat.le_trans (stopAhead_write_le side) near)

theorem stopped_after {speaker : Speaker State} {device : State} {side : AudioSide State}
    (steady : speaker.NeverFails device) (coherent : Coherent speaker device side)
    {later : List Turn} (quiet : ∀ turn ∈ later, Quiet turn)
    (enough : side.finished.length + (if side.tick.phase = .reading then 0 else 1) +
      (side.level + 1) ≤ (side.play speaker later).finished.length) :
    (side.play speaker later).calls.getLast? = some .stop := by
  have near : side.stopAhead ≤ side.finished.length +
      (if side.tick.phase = .reading then 0 else 1) + (side.level + 1) := by
    rw [stopAhead]
    split <;> split <;> omega
  rcases settled_or_stopAhead_play steady coherent (.inr near) quiet with settled | far
  · exact settled.stopped
  · have ahead : (side.play speaker later).finished.length <
        (side.play speaker later).stopAhead := by
      rw [stopAhead]
      split <;> omega
    omega

/-! ## Ticks that nobody writes into -/

/-- The calls of so many ticks on a timer that holds a value above zero. -/
def callsOfTicks (value ticks : Nat) : List SpeakerCall :=
  if ticks < value then List.replicate ticks .beep
  else List.replicate value .beep ++ List.replicate (ticks - value + 1) .stop

theorem callsOfTicks_beep {value ticks : Nat} (more : ticks + 1 < value) :
    callsOfTicks value ticks ++ [.beep] = callsOfTicks value (ticks + 1) := by
  rw [callsOfTicks, callsOfTicks, if_pos (Nat.lt_of_succ_lt more), if_pos more,
    List.replicate_succ']

theorem callsOfTicks_last {value ticks : Nat} (last : ticks + 1 = value) :
    callsOfTicks value ticks ++ [.beep, .stop] = callsOfTicks value (ticks + 1) := by
  subst last
  rw [callsOfTicks, callsOfTicks, if_pos (Nat.lt_succ_self _), if_neg (Nat.lt_irrefl _),
    List.replicate_succ', Nat.sub_self]
  simp

theorem callsOfTicks_stop {value ticks : Nat} (spent : value ≤ ticks) :
    callsOfTicks value ticks ++ [.stop] = callsOfTicks value (ticks + 1) := by
  rw [callsOfTicks, callsOfTicks, if_neg (by omega), if_neg (by omega), List.append_assoc,
    ← List.replicate_succ', Nat.succ_sub spent]

/-- Where a tick stands, with the level of the timer and the calls of the tick, if this many
ticks have been finished before it without a write since the timer held `value`. -/
inductive Standing (value ticks level : Nat) (calls : List SpeakerCall) : TickPhase → Prop where
  | reading (left : level = value - ticks) (asked : calls = []) :
      Standing value ticks level calls .reading
  | beeping (more : ticks < value) (left : level = value - ticks) (asked : calls = []) :
      Standing value ticks level calls .beeping
  | lowering (more : ticks < value) (left : level = value - ticks) (asked : calls = [.beep]) :
      Standing value ticks level calls .lowering
  | silent (spent : value ≤ ticks) (left : level = 0) (asked : calls = []) :
      Standing value ticks level calls .stopping
  | silenced (last : ticks + 1 = value) (left : level = 0) (asked : calls = [.beep]) :
      Standing value ticks level calls .stopping

structure Undisturbed (value : Nat) (side : AudioSide State) : Prop where
  standing : Standing value side.finished.length side.level
    (side.doing.filterMap TickEvent.call?) side.tick.phase
  called : side.finished.flatten.filterMap TickEvent.call? =
    callsOfTicks value side.finished.length

theorem Undisturbed.finish {value : Nat} {finished : List (List TickEvent)}
    {doing : List TickEvent} {timer : SoundTimer} {device : State}
    (called : (finished.flatten ++ doing).filterMap TickEvent.call? =
      callsOfTicks value (finished.length + 1))
    (left : timer.value.toNat = value - (finished.length + 1)) :
    Undisturbed value
      { tick := { timer, device }, finished := finished ++ [doing] } := by
  have counted : (finished ++ [doing]).length = finished.length + 1 := by simp
  refine ⟨.reading (by rw [counted]; exact left) rfl, ?_⟩
  rw [counted, List.flatten_append, List.flatten_singleton]
  exact called

theorem Undisturbed.act {speaker : Speaker State} {device : State} {side : AudioSide State}
    {value : Nat} (steady : speaker.NeverFails device)
    (coherent : Coherent speaker device side) (undisturbed : Undisturbed value side) :
    Undisturbed value (side.act speaker) := by
  have acts := coherent.acts steady
  obtain ⟨standing, called⟩ := undisturbed
  have lowered := side.tick.timer.toNat_decrement
  generalize side.act speaker = next at acts ⊢
  cases acts with
  | findsSilence reading silent =>
      rw [reading] at standing
      cases standing with
      | reading left asked =>
          have none : side.level = 0 := congrArg UInt8.toNat silent
          have spent : value ≤ side.finished.length := by omega
          refine ⟨.silent spent none ?_, called⟩
          rw [List.filterMap_append, asked]
          rfl
  | findsSound reading running =>
      rw [reading] at standing
      cases standing with
      | reading left asked =>
          have some : side.level ≠ 0 := fun none => running (UInt8.toNat_inj.mp none)
          have more : side.finished.length < value := by omega
          refine ⟨.beeping more left ?_, called⟩
          rw [List.filterMap_append, asked]
          rfl
  | beeps beeping =>
      rw [beeping] at standing
      cases standing with
      | beeping more left asked =>
          refine ⟨.lowering more left ?_, called⟩
          rw [List.filterMap_append, asked]
          rfl
  | lowersToSilence lowering silent =>
      rw [lowering] at standing
      cases standing with
      | lowering more left asked =>
          have none : side.tick.timer.decrement.value.toNat = 0 := congrArg UInt8.toNat silent
          rw [level] at left
          have last : side.finished.length + 1 = value := by omega
          refine ⟨.silenced last none ?_, called⟩
          rw [List.filterMap_append, asked]
          rfl
  | lowers lowering more =>
      rw [lowering] at standing
      cases standing with
      | lowering earlier left asked =>
          have some : side.tick.timer.decrement.value.toNat ≠ 0 :=
            fun none => more (UInt8.toNat_inj.mp none)
          rw [level] at left
          refine .finish ?_ (by omega)
          rw [List.filterMap_append, List.filterMap_append, called, asked]
          exact callsOfTicks_beep (by omega)
  | stops stopping =>
      rw [stopping] at standing
      rw [level] at standing
      cases standing with
      | silent spent left asked =>
          refine .finish ?_ (by omega)
          rw [List.filterMap_append, List.filterMap_append, called, asked]
          exact callsOfTicks_stop spent
      | silenced last left asked =>
          refine .finish ?_ (by omega)
          rw [List.filterMap_append, List.filterMap_append, called, asked]
          exact callsOfTicks_last last

theorem undisturbed_play {speaker : Speaker State} {device : State} {side : AudioSide State}
    {value : Nat} (steady : speaker.NeverFails device)
    (coherent : Coherent speaker device side) (undisturbed : Undisturbed value side)
    (acts : Nat) : Undisturbed value (side.play speaker (List.replicate acts .act)) := by
  induction acts generalizing side with
  | zero => exact undisturbed
  | succ acts ih => exact ih (coherent.act steady) (undisturbed.act steady coherent)

theorem play_append (speaker : Speaker State) (side : AudioSide State)
    (earlier later : List Turn) :
    side.play speaker (earlier ++ later) = (side.play speaker earlier).play speaker later :=
  List.foldl_append

def between (timer : SoundTimer) (device : State) (finished : List (List TickEvent)) :
    AudioSide State :=
  { tick := { timer, device }, finished }

theorem acts_of_tick {speaker : Speaker State} {device : State}
    (steady : speaker.NeverFails device) (timer : SoundTimer)
    (finished : List (List TickEvent)) :
    ∃ (acts : Nat) (events : List TickEvent) (lowered : SoundTimer) (next : State),
      timer.tick speaker device = (.ok (), lowered, next) ∧ speaker.NeverFails next ∧
      (between timer device finished).play speaker (List.replicate acts .act) =
        between lowered next (finished ++ [events]) := by
  by_cases silent : timer.value = 0
  · obtain ⟨next, stopped, steadyThen⟩ := steady.stop
    refine ⟨2, [.read 0, .call .stop], timer, next, ?_, steadyThen, ?_⟩
    · rw [SoundTimer.tick, if_pos silent, stopped]
    · simp [between, play, take, act, TickState.act, TickState.event?, silent, stopped]
  obtain ⟨sounding, beeped, steadyThen⟩ := steady.beep
  by_cases last : timer.decrement.value = 0
  · obtain ⟨next, stopped, steadyLast⟩ := steadyThen.stop
    refine ⟨4, [.read timer.value, .call .beep, .lower timer.value 0, .call .stop],
      timer.decrement, next, ?_, steadyLast, ?_⟩
    · simp [SoundTimer.tick, silent, beeped, last, stopped]
    · simp [between, play, take, act, TickState.act, TickState.event?, silent, beeped, last,
        stopped]
  · refine ⟨3, [.read timer.value, .call .beep, .lower timer.value timer.decrement.value],
      timer.decrement, sounding, ?_, steadyThen, ?_⟩
    · simp [SoundTimer.tick, silent, beeped, last]
    · simp [between, play, take, act, TickState.act, TickState.event?, silent, beeped, last]

/-- Some actions make as many whole ticks as one likes, and playback makes the same. -/
theorem acts_of_run {speaker : Speaker State} (ticks : Nat) {device : State}
    (steady : speaker.NeverFails device) (timer : SoundTimer)
    (finished : List (List TickEvent)) :
    ∃ (acts : Nat) (also : List (List TickEvent)),
      also.length = ticks ∧
      (between timer device finished).play speaker (List.replicate acts .act) =
        between (Playback.run speaker ⟨timer, device, false⟩ ticks).timer
          (Playback.run speaker ⟨timer, device, false⟩ ticks).device (finished ++ also) := by
  induction ticks generalizing device timer finished with
  | zero => exact ⟨0, [], rfl, by rw [List.append_nil]; rfl⟩
  | succ ticks ih =>
      obtain ⟨first, events, lowered, next, ticked, steadyThen, made⟩ :=
        acts_of_tick steady timer finished
      obtain ⟨rest, also, counted, madeThen⟩ := ih steadyThen lowered (finished ++ [events])
      have cycled : Playback.cycle speaker ⟨timer, device, false⟩ = ⟨lowered, next, false⟩ := by
        simp [Playback.cycle, Playback.current, ticked]
      refine ⟨first + rest, events :: also, congrArg (· + 1) counted, ?_⟩
      rw [← List.replicate_append_replicate, play_append, made, madeThen, Playback.run, cycled,
        List.append_assoc, List.singleton_append]

/-! ## All ticks -/

/-- A value written now and counted down without another write is lowered once by each of as
many ticks. The tick under way is one of them unless it has its count behind it. -/
def LowersInFull (speaker : Speaker State) (side : AudioSide State) (value : UInt8) : Prop :=
  ∀ acts, let last := (side.take speaker (.write value)).play speaker (List.replicate acts .act)
    last.level + last.lowerings = value.toNat + side.lowerings ∧
      (side.finished.length + value.toNat + (if side.tick.phase = .stopping then 1 else 0) ≤
          last.finished.length →
        last.lowerings = side.lowerings + value.toNat)

/-- What holds of the ticks taken so far, whatever has been written among their actions. -/
structure Steadfast (speaker : Speaker State) (side : AudioSide State) : Prop where
  beepsFirst : ∀ events ∈ side.finished ++ [side.doing], BeepsFirst events
  /-- A finished tick ends with a stop if it has found silence or left it, and only then. -/
  stopsAtSilence : ∀ events ∈ side.finished,
    (events.filterMap TickEvent.call?).getLast? = some .stop ↔
      .read 0 ∈ events ∨ ∃ found, .lower found 0 ∈ events
  lowersInFull : ∀ value, LowersInFull speaker side value
  /-- If only silence is still written, the speaker is stopped for good after the tick under
  way and as many more as the timer holds, and one. -/
  fallsSilent : ∀ later : List Turn, (∀ turn ∈ later, Quiet turn) →
    side.finished.length + (if side.tick.phase = .reading then 0 else 1) + (side.level + 1) ≤
        (side.play speaker later).finished.length →
      (side.play speaker later).calls.getLast? = some .stop

theorem Coherent.lowersInFull {speaker : Speaker State} {device : State}
    {side : AudioSide State} (steady : speaker.NeverFails device)
    (coherent : Coherent speaker device side) (value : UInt8) :
    LowersInFull speaker side value := by
  intro acts last
  have counted := counted_down steady (coherent.take steady (.write value)) acts
  have conserved : last.level + last.lowerings = value.toNat + side.lowerings := counted.1
  have rest : last.level = 0 ∨ last.ahead ≤ side.finished.length + value.toNat +
      (if side.tick.phase = .stopping then 1 else 0) := counted.2.2
  refine ⟨conserved, fun enough => ?_⟩
  have silent : last.level = 0 := by
    rcases rest with silent | closer
    · exact silent
    · rw [ahead] at closer
      omega
  omega

theorem Coherent.steadfast {speaker : Speaker State} {device : State} {side : AudioSide State}
    (steady : speaker.NeverFails device) (coherent : Coherent speaker device side) :
    Steadfast speaker side where
  beepsFirst := by
    intro events among
    rcases List.mem_append.mp among with finished | doing
    · exact (coherent.whole events finished).beepsFirst
    · rw [List.mem_singleton.mp doing]
      exact coherent.underway.beepsFirst
  stopsAtSilence events finished := (coherent.whole events finished).getLast_calls
  lowersInFull := coherent.lowersInFull steady
  fallsSilent _ quiet enough := stopped_after steady coherent quiet enough

theorem Undisturbed.start {value : UInt8} (device : State) (running : value ≠ 0) :
    Undisturbed value.toNat (start ⟨value⟩ device) := by
  have positive : 0 < value.toNat :=
    Nat.pos_of_ne_zero fun none => running (UInt8.toNat_inj.mp none)
  exact ⟨.reading rfl rfl, (if_pos positive).symm⟩

/-- Ticks that nobody writes into beep until the timer has run down and stop from then on. -/
theorem device_run {speaker : Speaker State} {device : State}
    (steady : speaker.NeverFails device) {value : UInt8} (running : value ≠ 0) (ticks : Nat) :
    (Playback.run speaker ⟨⟨value⟩, device, false⟩ ticks).device =
      speaker.after device (callsOfTicks value.toNat ticks) := by
  obtain ⟨acts, finished, counted, made⟩ := acts_of_run ticks steady ⟨value⟩ []
  have coherent := (Coherent.start speaker ⟨value⟩ device).play steady (.replicate acts .act)
  have undisturbed := undisturbed_play steady (.start speaker ⟨value⟩ device)
    (.start device running) acts
  change (start ⟨value⟩ device).play speaker (.replicate acts .act) = _ at made
  rw [made] at coherent undisturbed
  have called : (finished.flatten ++ []).filterMap TickEvent.call? =
      callsOfTicks value.toNat ticks := by
    rw [List.append_nil, ← counted]
    exact undisturbed.called
  exact coherent.called.trans (congrArg (speaker.after device) called)

/-- The machine may write whatever it likes among the actions of ticks on a speaker that does
not fail. -/
theorem steadfast_among_writes {speaker : Speaker State} {device : State}
    (steady : speaker.NeverFails device) (timer : SoundTimer) (turns : List Turn) :
    let side := (start timer device).play speaker turns
    Steadfast speaker side ∧ side.tick.device = speaker.after device side.calls ∧
      turns.count .act ≤ 4 * side.finished.length + 3 ∧
      ∀ value : UInt8, value ≠ 0 →
        (∀ acts, let last := (start ⟨value⟩ device).play speaker (List.replicate acts .act)
          last.finished.flatten.filterMap TickEvent.call? =
            callsOfTicks value.toNat last.finished.length) ∧
        ∀ ticks, (Playback.run speaker ⟨⟨value⟩, device, false⟩ ticks).device =
          speaker.after device (callsOfTicks value.toNat ticks) := by
  have coherent := (Coherent.start speaker timer device).play steady turns
  have acted := length_events_play steady (.start speaker timer device) turns
  have few := coherent.length_events_le
  refine ⟨coherent.steadfast steady, coherent.called, ?_, fun value running =>
    ⟨fun acts => ?_, device_run steady running⟩⟩
  · have none : (start timer device).events.length = 0 := rfl
    omega
  · exact (undisturbed_play steady (.start speaker ⟨value⟩ device) (.start device running)
      acts).called

/-- The first tick is silenced before it beeps and set again before it stops, the second one
is set to its last sixtieth before it counts down. -/
theorem steadfast_among_writes_recorded :
    let speaker := Speaker.recorder none
    let side := (start ⟨2⟩ []).play speaker
      [.act, .write 0, .act, .act, .write 3, .act, .act, .act, .write 1, .act]
    speaker.NeverFails [] ∧
      side.finished = [[.read 2, .call .beep, .lower 0 0, .call .stop]] ∧
      side.doing = [.read 3, .call .beep, .lower 1 0] ∧
      Steadfast speaker side ∧ side.tick.device = speaker.after [] side.calls ∧
      (Playback.run speaker ⟨⟨2⟩, [], false⟩ 4).device =
        speaker.after [] [.beep, .beep, .stop, .stop, .stop] := by
  have steady := Speaker.recorder_neverFails []
  obtain ⟨steadfast, called, -, undisturbed⟩ := steadfast_among_writes steady ⟨2⟩
    [.act, .write 0, .act, .act, .write 3, .act, .act, .act, .write 1, .act]
  exact ⟨steady, by decide, by decide, steadfast, called, (undisturbed 2 (by decide)).2 4⟩

end ChipEight.AudioSide
