import ChipEight.Sound.Turns

/-!
# What ticks do among writes

On a speaker that does not fail a tick can go in three ways, whatever the machine writes
between its actions: silence found at once, silence left by the count, or sound left by it.
-/

set_option autoImplicit false

namespace ChipEight

/-! ## Speakers that never fail -/

namespace Speaker

variable {State : Type}

def answer (speaker : Speaker State) (state : State) :
    SpeakerCall → Except DeviceFailure Unit × State
  | .beep => speaker.beep state
  | .stop => speaker.stop state

def after (speaker : Speaker State) (state : State) (calls : List SpeakerCall) : State :=
  calls.foldl (fun state call => (speaker.answer state call).2) state

/-- Whatever has been asked before, every call succeeds. -/
def NeverFails (speaker : Speaker State) (state : State) : Prop :=
  ∀ calls call, (speaker.answer (speaker.after state calls) call).1 = .ok ()

theorem after_append (speaker : Speaker State) (state : State)
    (earlier later : List SpeakerCall) :
    speaker.after state (earlier ++ later) =
      speaker.after (speaker.after state earlier) later :=
  List.foldl_append

theorem NeverFails.beep {speaker : Speaker State} {state : State}
    (steady : speaker.NeverFails state) :
    ∃ next, speaker.beep state = (.ok (), next) ∧ speaker.NeverFails next :=
  ⟨_, Prod.ext (steady [] .beep) rfl, fun calls => steady (.beep :: calls)⟩

theorem NeverFails.stop {speaker : Speaker State} {state : State}
    (steady : speaker.NeverFails state) :
    ∃ next, speaker.stop state = (.ok (), next) ∧ speaker.NeverFails next :=
  ⟨_, Prod.ext (steady [] .stop) rfl, fun calls => steady (.stop :: calls)⟩

theorem recorder_neverFails (calls : List SpeakerCall) : (recorder none).NeverFails calls := by
  intro asked call
  cases call with
  | beep => rfl
  | stop => rfl

end Speaker

namespace AudioSide

variable {State : Type}

/-! ## Actions -/

theorem events_act (speaker : Speaker State) (side : AudioSide State) :
    (side.act speaker).events = side.events ++ side.tick.event?.toList := by
  simp only [act, events]
  split
  · simp
  · simp

theorem calls_act (speaker : Speaker State) (side : AudioSide State) :
    (side.act speaker).calls =
      side.calls ++ side.tick.event?.toList.filterMap TickEvent.call? := by
  rw [calls, events_act, List.filterMap_append, calls]

theorem device_act (speaker : Speaker State) (side : AudioSide State) :
    (side.act speaker).tick.device =
      speaker.after side.tick.device (side.tick.event?.toList.filterMap TickEvent.call?) := by
  have kept : (side.act speaker).tick.device = (side.tick.act speaker).device := by
    rw [act]
    split <;> rfl
  rw [kept]
  obtain ⟨phase, timer, device, outcome⟩ := side.tick
  cases phase with
  | beeping =>
      simp only [TickState.act]
      split <;> rename_i answered <;> exact (congrArg Prod.snd answered).symm
  | reading | lowering | stopping | finished => rfl

/-- The six ways in which an action can go on a speaker that does not fail. -/
inductive Acts (speaker : Speaker State) (side : AudioSide State) : AudioSide State → Prop where
  | findsSilence (reading : side.tick.phase = .reading) (silent : side.tick.timer.value = 0) :
      Acts speaker side
        { side with
          tick := { side.tick with phase := .stopping }
          doing := side.doing ++ [.read 0] }
  | findsSound (reading : side.tick.phase = .reading) (running : side.tick.timer.value ≠ 0) :
      Acts speaker side
        { side with
          tick := { side.tick with phase := .beeping }
          doing := side.doing ++ [.read side.tick.timer.value] }
  | beeps (beeping : side.tick.phase = .beeping) :
      Acts speaker side
        { side with
          tick := { side.tick with phase := .lowering, device := (speaker.beep side.tick.device).2 }
          doing := side.doing ++ [.call .beep] }
  | lowersToSilence (lowering : side.tick.phase = .lowering)
      (silent : side.tick.timer.decrement.value = 0) :
      Acts speaker side
        { side with
          tick := { side.tick with phase := .stopping, timer := side.tick.timer.decrement }
          doing := side.doing ++ [.lower side.tick.timer.value 0] }
  | lowers (lowering : side.tick.phase = .lowering)
      (running : side.tick.timer.decrement.value ≠ 0) :
      Acts speaker side
        { tick := { timer := side.tick.timer.decrement, device := side.tick.device }
          finished := side.finished ++
            [side.doing ++ [.lower side.tick.timer.value side.tick.timer.decrement.value]] }
  | stops (stopping : side.tick.phase = .stopping) :
      Acts speaker side
        { tick := { timer := side.tick.timer, device := (speaker.stop side.tick.device).2 }
          finished := side.finished ++ [side.doing ++ [.call .stop]] }

theorem acts_act {speaker : Speaker State} {side : AudioSide State}
    (beep : (speaker.beep side.tick.device).1 = .ok ())
    (ready : side.tick.phase ≠ .finished) : Acts speaker side (side.act speaker) := by
  obtain ⟨⟨phase, timer, device, outcome⟩, doing, finished⟩ := side
  cases phase with
  | reading =>
      by_cases silent : timer.value = 0
      · simp only [act, TickState.act, TickState.event?, silent]
        exact .findsSilence rfl silent
      · simp only [act, TickState.act, TickState.event?, if_neg silent]
        exact .findsSound rfl silent
  | beeping =>
      have beeped : TickState.act speaker ⟨.beeping, timer, device, outcome⟩ =
          ⟨.lowering, timer, (speaker.beep device).2, outcome⟩ := by
        rcases answered : speaker.beep device with ⟨answer, next⟩
        rw [answered] at beep
        cases beep
        simp only [TickState.act, answered]
      simp only [act, TickState.event?, beeped]
      exact .beeps rfl
  | lowering =>
      by_cases silent : timer.decrement.value = 0
      · simp only [act, TickState.act, TickState.event?, silent]
        exact .lowersToSilence rfl silent
      · simp only [act, TickState.act, TickState.event?, if_neg silent]
        exact .lowers rfl silent
  | stopping => exact .stops rfl
  | finished => exact absurd rfl ready

/-! ## What a tick has done -/

/-- What a tick has done when it comes to each of its actions. -/
inductive Underway : TickPhase → List TickEvent → Prop where
  | reading : Underway .reading []
  | beeping {value : UInt8} (running : value ≠ 0) : Underway .beeping [.read value]
  | lowering {value : UInt8} (running : value ≠ 0) :
      Underway .lowering [.read value, .call .beep]
  | silent : Underway .stopping [.read 0]
  | silenced {value : UInt8} (running : value ≠ 0) (found : UInt8) :
      Underway .stopping [.read value, .call .beep, .lower found 0]

/-- What a finished tick has done. -/
inductive Whole : List TickEvent → Prop where
  | silent : Whole [.read 0, .call .stop]
  | silenced {value : UInt8} (running : value ≠ 0) (found : UInt8) :
      Whole [.read value, .call .beep, .lower found 0, .call .stop]
  | sounding {value left : UInt8} (running : value ≠ 0) (found : UInt8) (more : left ≠ 0) :
      Whole [.read value, .call .beep, .lower found left]

/-- The ticks of the audio side have done what ticks do, and the speaker is in the state
that their calls have brought it to. -/
structure Coherent (speaker : Speaker State) (device : State) (side : AudioSide State) :
    Prop where
  underway : Underway side.tick.phase side.doing
  whole : ∀ events ∈ side.finished, Whole events
  called : side.tick.device = speaker.after device side.calls

theorem Coherent.start (speaker : Speaker State) (timer : SoundTimer) (device : State) :
    Coherent speaker device (.start timer device) :=
  { underway := .reading, whole := nofun, called := rfl }

theorem Underway.ready {phase : TickPhase} {doing : List TickEvent}
    (underway : Underway phase doing) : phase ≠ .finished := by
  cases underway <;> exact nofun

theorem Coherent.acts {speaker : Speaker State} {device : State} {side : AudioSide State}
    (steady : speaker.NeverFails device) (coherent : Coherent speaker device side) :
    Acts speaker side (side.act speaker) := by
  refine acts_act ?_ coherent.underway.ready
  rw [coherent.called]
  exact steady side.calls .beep

theorem Whole.concat {ticks : List (List TickEvent)} (whole : ∀ events ∈ ticks, Whole events)
    {last : List TickEvent} (also : Whole last) : ∀ events ∈ ticks ++ [last], Whole events := by
  intro events among
  rcases List.mem_append.mp among with earlier | added
  · exact whole events earlier
  · rw [List.mem_singleton.mp added]
    exact also

theorem Coherent.act {speaker : Speaker State} {device : State} {side : AudioSide State}
    (steady : speaker.NeverFails device) (coherent : Coherent speaker device side) :
    Coherent speaker device (side.act speaker) := by
  have acts := coherent.acts steady
  obtain ⟨underway, whole, called⟩ := coherent
  have calledNext : (side.act speaker).tick.device =
      speaker.after device (side.act speaker).calls := by
    rw [device_act, calls_act, Speaker.after_append, called]
  generalize side.act speaker = next at acts calledNext ⊢
  obtain ⟨⟨phase, timer, state, outcome⟩, doing, finished⟩ := side
  cases acts with
  | findsSilence reading silent =>
      cases reading
      cases underway
      exact ⟨.silent, whole, calledNext⟩
  | findsSound reading running =>
      cases reading
      cases underway
      exact ⟨.beeping running, whole, calledNext⟩
  | beeps beeping =>
      cases beeping
      cases underway with
      | beeping running => exact ⟨.lowering running, whole, calledNext⟩
  | lowersToSilence lowering silent =>
      cases lowering
      cases underway with
      | lowering running => exact ⟨.silenced running _, whole, calledNext⟩
  | lowers lowering more =>
      cases lowering
      cases underway with
      | lowering running =>
          exact ⟨.reading, Whole.concat whole (.sounding running _ more), calledNext⟩
  | stops stopping =>
      cases stopping
      cases underway with
      | silent => exact ⟨.reading, Whole.concat whole .silent, calledNext⟩
      | silenced running found =>
          exact ⟨.reading, Whole.concat whole (.silenced running found), calledNext⟩

theorem Coherent.take {speaker : Speaker State} {device : State} {side : AudioSide State}
    (steady : speaker.NeverFails device) (coherent : Coherent speaker device side)
    (turn : Turn) : Coherent speaker device (side.take speaker turn) := by
  cases turn with
  | act => exact coherent.act steady
  | write value => exact ⟨coherent.underway, coherent.whole, coherent.called⟩

theorem Coherent.play {speaker : Speaker State} {device : State} {side : AudioSide State}
    (steady : speaker.NeverFails device) (coherent : Coherent speaker device side)
    (turns : List Turn) : Coherent speaker device (side.play speaker turns) := by
  induction turns generalizing side with
  | nil => exact coherent
  | cons turn later ih => exact ih (coherent.take steady turn)

/-- A tick beeps before it counts down. -/
def BeepsFirst (events : List TickEvent) : Prop :=
  ∀ earlier found left later, events = earlier ++ .lower found left :: later →
    .call .beep ∈ earlier

theorem Underway.beepsFirst {phase : TickPhase} {doing : List TickEvent}
    (underway : Underway phase doing) : BeepsFirst doing := by
  intro earlier found left later split
  cases underway <;> rcases earlier with _ | ⟨first, _ | ⟨second, rest⟩⟩ <;> simp_all

theorem Whole.beepsFirst {events : List TickEvent} (whole : Whole events) :
    BeepsFirst events := by
  intro earlier found left later split
  cases whole <;> rcases earlier with _ | ⟨first, _ | ⟨second, rest⟩⟩ <;> simp_all

theorem Whole.getLast_calls {events : List TickEvent} (whole : Whole events) :
    (events.filterMap TickEvent.call?).getLast? = some .stop ↔
      .read 0 ∈ events ∨ ∃ found, .lower found 0 ∈ events := by
  cases whole with
  | silent => exact iff_of_true rfl (.inl List.mem_cons_self)
  | silenced running found => exact iff_of_true rfl (.inr ⟨found, by simp⟩)
  | sounding running found more =>
      refine iff_of_false ?_ (by simp [running.symm, more.symm])
      change ¬ some SpeakerCall.beep = some SpeakerCall.stop
      decide

theorem Underway.length_le {phase : TickPhase} {doing : List TickEvent}
    (underway : Underway phase doing) : doing.length ≤ 3 := by
  cases underway <;> simp

theorem Whole.length_le {events : List TickEvent} (whole : Whole events) :
    events.length ≤ 4 := by
  cases whole <;> simp

/-! ## Progress -/

theorem length_event? {tick : TickState State} (ready : tick.phase ≠ .finished) :
    tick.event?.toList.length = 1 := by
  unfold TickState.event?
  split
  case h_5 finished => exact absurd finished ready
  all_goals rfl

theorem length_events_play {speaker : Speaker State} {device : State} {side : AudioSide State}
    (steady : speaker.NeverFails device) (coherent : Coherent speaker device side)
    (turns : List Turn) :
    (side.play speaker turns).events.length = side.events.length + turns.count .act := by
  induction turns generalizing side with
  | nil => rfl
  | cons turn later ih =>
      have rest := ih (coherent.take steady turn)
      cases turn with
      | act =>
          have one : (side.act speaker).events.length = side.events.length + 1 := by
            rw [events_act, List.length_append, length_event? coherent.underway.ready]
          have counted : (Turn.act :: later).count .act = later.count .act + 1 :=
            List.count_cons_self
          exact rest.trans (by rw [take, one, counted]; omega)
      | write value =>
          have counted : (Turn.write value :: later).count .act = later.count .act :=
            List.count_cons_of_ne (by simp)
          rw [counted]
          exact rest

theorem Coherent.length_events_le {speaker : Speaker State} {device : State}
    {side : AudioSide State} (coherent : Coherent speaker device side) :
    side.events.length ≤ 4 * side.finished.length + 3 := by
  have four : ∀ finished : List (List TickEvent), (∀ events ∈ finished, Whole events) →
      finished.flatten.length ≤ 4 * finished.length := by
    intro finished whole
    induction finished with
    | nil => exact Nat.zero_le _
    | cons events later ih =>
        have first := (whole events List.mem_cons_self).length_le
        have rest := ih fun other among => whole other (List.mem_cons_of_mem _ among)
        rw [List.flatten_cons, List.length_append, List.length_cons]
        omega
  have three := coherent.underway.length_le
  have finished := four side.finished coherent.whole
  rw [events, List.length_append]
  omega

end AudioSide

end ChipEight
