import ChipEight.Proofs.Keyboard.HoldTime
import ChipEight.Proofs.Keyboard.Mirror
import ChipEight.Proofs.Machine.Effects
import ChipEight.Proofs.Run.Loop
import ChipEight.Proofs.Run.Strides

/-!
# Typing into a run

A run on a keyboard keeps its keypad at the keys that the keyboard holds, so its program finds a
key down for as long as the keyboard holds it, and no key is ever refused.
-/

set_option autoImplicit false

namespace ChipEight

/-! ## Steps and the keypad -/

namespace Machine

theorem keypad_step (machine : Machine) (now period : UInt64) :
    (machine.step now period).2.keypad = machine.keypad := by
  rcases machine.step_cases now period with
    ⟨-, refused⟩ | ⟨-, fault, -, failed⟩ | ⟨-, instruction, -, -, executed⟩
  · rw [refused]
  · rw [failed, ready_eq]
  · rw [executed, (confined_execute (machine.ready now period) instruction).keypad, ready_eq]

theorem step_ne_keyOutOfRange (machine : Machine) (now period : UInt64) (key : UInt8) :
    (machine.step now period).1 ≠ .error (.keyOutOfRange key) := by
  rcases machine.step_cases now period with
    ⟨-, refused⟩ | ⟨-, fault, named, failed⟩ | ⟨-, instruction, -, -, executed⟩
  · rw [refused]
    exact nofun
  · rw [failed]
    rintro ⟨⟩
    cases named
  · rw [executed]
    exact nofun

theorem counter_step_of_skip {machine : Machine} {now period : UInt64} {condition : Condition}
    (skipped : (machine.step now period).1 = .ok (.skip condition)) :
    (machine.step now period).2.counter =
      if machine.holds condition then machine.counter + 4 else machine.counter + 2 := by
  obtain ⟨free, executed⟩ := step_of_ok skipped
  rw [executed]
  exact Option.some.inj (counter_execute free).symm

/-- The program goes on two instructions further if the condition holds, and else one. -/
def SkipsIff (before after : Machine) (condition : Prop) : Prop :=
  (condition ∧ after.counter = before.counter + 4) ∨
    (¬ condition ∧ after.counter = before.counter + 2)

theorem skipsIff_of_step {machine : Machine} {now period : UInt64} {condition : Condition}
    (skipped : (machine.step now period).1 = .ok (.skip condition)) {holds : Prop}
    (same : machine.holds condition = true ↔ holds) :
    SkipsIff machine (machine.step now period).2 holds := by
  have counter := counter_step_of_skip skipped
  by_cases held : machine.holds condition = true
  · exact .inl ⟨same.mp held, counter.trans (if_pos held)⟩
  · exact .inr ⟨fun condition => held (same.mpr condition), counter.trans (if_neg held)⟩

theorem keypad_stepUnlessAwaiting (machine : Machine) (now : Nat) :
    (machine.stepUnlessAwaiting now).2.keypad = machine.keypad := by
  by_cases running : machine.awaiting = none
  · rw [stepUnlessAwaiting_of_running running, keypad_step]
  · rw [stepUnlessAwaiting_of_waiting running]

theorem stepUnlessAwaiting_ne_keyOutOfRange (machine : Machine) (now : Nat) (key : UInt8) :
    (machine.stepUnlessAwaiting now).1 ≠ .error (.keyOutOfRange key) := by
  unfold stepUnlessAwaiting
  split
  · exact nofun
  · have known := machine.step_ne_keyOutOfRange (UInt64.ofNat now) delayPeriod key
    rcases stepped : machine.step (UInt64.ofNat now) delayPeriod with ⟨outcome, next⟩
    rw [stepped] at known
    cases outcome with
    | ok instruction => exact nofun
    | error fault =>
        rintro ⟨⟩
        exact known rfl

end Machine

/-! ## Cycles on a keyboard -/

theorem Run.stepAndCount_cases (pacing : Pacing) (reading : Reading) (run : Run) :
    (∃ fault, (run.machine.stepUnlessAwaiting reading.stepTime).1 = .error fault ∧
      (run.stepAndCount pacing reading).1 = .ended (.error (.machine fault))) ∨
    ∃ due, (run.stepAndCount pacing reading).1 = .completed due := by
  rw [stepAndCount]
  rcases run.machine.stepUnlessAwaiting reading.stepTime with ⟨outcome, machine⟩
  cases outcome with
  | error fault => exact .inl ⟨fault, rfl, rfl⟩
  | ok done =>
      by_cases due : run.frameDueAt ≤ reading.startTime
      · exact .inr ⟨true, by simp [due]⟩
      · exact .inr ⟨false, by simp [due]⟩

namespace TypedInput

/-- What the next poll tells. -/
def told (input : TypedInput) : List PadEvent :=
  (input.keyboard.poll (input.arrivals input.polls) (input.closing input.polls)).1

theorem poll_eq (input : TypedInput) :
    InputDevice.typed.poll input = (.ok input.told, input.polled 1) := rfl

end TypedInput

/-- What a machine has been told by a poll mirrors the keyboard after the poll. -/
theorem Mirrors.told {machine : Machine} {input : TypedInput}
    (mirrors : Mirrors machine.keypad input.keyboard) :
    Mirrors (input.told.foldl Machine.afterEvent machine).keypad (input.polled 1).keyboard := by
  rw [Machine.keypad_afterEvents]
  exact mirrors.poll _ _

theorem Machine.deliver_told (machine : Machine) (input : TypedInput) :
    (∃ next, machine.deliver input.told = (.ok false, next)) ∨
      machine.deliver input.told = (.ok true, input.told.foldl afterEvent machine) :=
  deliver_poll machine input.keyboard _ _

theorem Run.cycle_told_cases (pacing : Pacing) (reading : Reading) (run : Run)
    (input : TypedInput) :
    (run.cycle pacing (.ok input.told) reading).1 = .ended (.ok run.cycles) ∨
      run.cycle pacing (.ok input.told) reading =
        { run with machine := input.told.foldl Machine.afterEvent run.machine }.stepAndCount
          pacing reading := by
  rcases run.machine.deliver_told input with ⟨next, quit⟩ | delivered
  · exact .inl (by simp only [cycle, quit])
  · exact .inr (by simp only [cycle, delivered])

/-! ## Runs on a keyboard -/

namespace Session

variable {Displays : Type}

/-- A run on a keyboard once so many cycles are completed. -/
structure Typed (input : TypedInput) (cycles : Nat) (session : Session TypedInput Displays) :
    Prop where
  polled : session.input = input.polled cycles
  mirrors : Mirrors session.run.machine.keypad session.input.keyboard

theorem Typed.next {input : TypedInput} {cycles : Nat} {session : Session TypedInput Displays}
    (typed : Typed input cycles session) :
    session.input.polled 1 = input.polled (cycles + 1) := by
  rw [typed.polled]
  rfl

variable (display : DisplayDevice Displays) (pacing : Pacing) (clock : Clock)

theorem loop_one_ne_keyOutOfRange (session : Session TypedInput Displays) (key : UInt8) :
    (session.loop .typed display pacing clock 1).1 ≠
      some (.error (.machine (.keyOutOfRange key))) := by
  rcases session.loop_one_cases .typed display pacing clock with
    spent | ⟨ended, ends, looped⟩ | ⟨due, -, -, going | ⟨cause, failed⟩⟩
  · rw [spent]
    exact nofun
  · rw [looped]
    rintro ⟨⟩
    rw [TypedInput.poll_eq] at ends
    rcases session.run.cycle_told_cases pacing (clock session.run.cycles) session.input with
      quit | stepped
    · cases quit.symm.trans ends
    · rw [stepped] at ends
      rcases Run.stepAndCount_cases pacing (clock session.run.cycles) _ with
        ⟨fault, failed, endsSo⟩ | ⟨due, completed⟩
      · cases endsSo.symm.trans ends
        exact Machine.stepUnlessAwaiting_ne_keyOutOfRange _ _ key failed
      · cases completed.symm.trans ends
  · rw [going]
    exact nofun
  · rw [failed]
    exact nofun

theorem Typed.turn {input : TypedInput} {cycles : Nat} {session : Session TypedInput Displays}
    (typed : Typed input cycles session)
    (going : (session.loop .typed display pacing clock 1).1 = none) :
    Typed input (cycles + 1) (session.loop .typed display pacing clock 1).2 := by
  rcases session.loop_one_cases .typed display pacing clock with
    spent | ⟨ended, -, looped⟩ | ⟨due, completed, inputs, -⟩
  · rw [spent] at going
    cases going
  · rw [looped] at going
    cases going
  · rw [TypedInput.poll_eq] at completed inputs
    refine ⟨inputs.trans typed.next, ?_⟩
    rcases session.run.cycle_told_cases pacing (clock session.run.cycles) session.input with
      quit | stepped
    · rw [completed] at quit
      cases quit
    · -- The step comes after the delivery and leaves the keypad alone.
      have run := completed.symm.trans stepped
      have machine := Run.machine_stepAndCount pacing (clock session.run.cycles)
        { session.run with
          machine := session.input.told.foldl Machine.afterEvent session.run.machine }
      rw [← run] at machine
      rw [machine, Machine.keypad_stepUnlessAwaiting, inputs]
      exact typed.mirrors.told

/-- After every completed cycle the keypad mirrors the keyboard, and no key is refused. -/
theorem loop_typed {input : TypedInput} {session : Session TypedInput Displays}
    (fresh : Typed input 0 session) (most : Nat) :
    ((session.loop .typed display pacing clock most).1 = none →
      Typed input most (session.loop .typed display pacing clock most).2) ∧
    ∀ key, (session.loop .typed display pacing clock most).1 ≠
      some (.error (.machine (.keyOutOfRange key))) := by
  induction most with
  | zero => exact ⟨fun _ => fresh, fun _ => nofun⟩
  | succ most ih =>
      rw [loop_succ_last]
      rcases looped : session.loop .typed display pacing clock most with ⟨outcome, reached⟩
      rw [looped] at ih
      cases outcome with
      | some ended => exact ⟨nofun, ih.2⟩
      | none =>
          exact ⟨(ih.1 rfl).turn display pacing clock,
            reached.loop_one_ne_keyOutOfRange display pacing clock⟩

theorem runFor_ne_keyOutOfRange {input : TypedInput} {session : Session TypedInput Displays}
    (fresh : Typed input 0 session) (most : Nat) (key : UInt8) :
    (session.runFor .typed display pacing clock most).1 ≠
      some (.error (.machine (.keyOutOfRange key))) := by
  have looped := (loop_typed display pacing clock fresh most).2 key
  rw [runFor]
  rcases reached : session.loop .typed display pacing clock most with ⟨outcome, last⟩
  rw [reached] at looped
  cases outcome with
  | none =>
      intro refused
      cases refused
  | some ended =>
      obtain ⟨outcome, displays, drawn⟩ := draw_eq display last
      dsimp only
      rw [drawn]
      cases outcome with
      | error cause =>
          intro refused
          cases refused
      | ok done => exact looped

theorem machine_of_stride? {session : Session TypedInput Displays} {stride : Stride}
    (made : session.stride? .typed pacing clock = some stride) :
    stride.machine = session.input.told.foldl Machine.afterEvent session.run.machine := by
  rw [stride?, TypedInput.poll_eq] at made
  dsimp only at made
  split at made
  · cases made
  · rcases session.run.machine.deliver_told session.input with ⟨next, quit⟩ | delivered
    · rw [quit] at made
      cases made
    · rw [delivered] at made
      dsimp only at made
      split at made
      · cases made
        rfl
      · cases made

theorem mirrors_stride {input : TypedInput} {session : Session TypedInput Displays}
    (fresh : Typed input 0 session) {cycle : Nat} {stride : Stride}
    (made : session.strideIn? .typed display pacing clock cycle = some stride) :
    Mirrors stride.machine.keypad (input.polled (cycle + 1)).keyboard := by
  rw [strideIn?] at made
  split at made
  case h_2 => cases made
  case h_1 reached looped =>
      have typed := (loop_typed display pacing clock fresh cycle).1 (congrArg Prod.fst looped)
      rw [looped] at typed
      rw [machine_of_stride? pacing clock made, ← typed.next]
      exact typed.mirrors.told

/-- The machine finds the key of a register down, by the presses up to the poll of this
cycle. -/
def FindsDown (input : TypedInput) (cycle : Nat) (machine : Machine) (x : Register) : Prop :=
  ∃ key, machine.register x = Keypad.number key ∧ input.HeldAfter key (cycle + 1)

theorem holds_pressed_iff {input : TypedInput} {session : Session TypedInput Displays}
    (fresh : Typed input 0 session) (unpolled : input.polls = 0)
    (empty : ∀ key : Fin 16, getElem input.keyboard.held key key.isLt = none)
    {cycle : Nat} {stride : Stride}
    (made : session.strideIn? .typed display pacing clock cycle = some stride) (x : Register) :
    stride.machine.keypad.isDown (stride.machine.register x) = true ↔
      FindsDown input cycle stride.machine x := by
  have mirrors := mirrors_stride display pacing clock fresh made
  rw [Keypad.isDown_iff, FindsDown]
  refine exists_congr fun key => and_congr_right fun _ => ?_
  rw [mirrors.down key, TypedInput.isSome_held_polled unpolled empty]

/-- A run from an idle keypad on a new keyboard keeps both alike and never meets a key that is
refused. Its program finds a key down from the poll that tells of it to the first poll that
ends the hold time or more after its latest press. -/
theorem keypad_mirrors_keyboard {machine : Machine} (idle : machine.keypad = .idle)
    (layout : KeyLayout) (arrivals : Nat → List (Nat × TerminalEvent)) (closing : Nat → Nat)
    (displays : Displays) :
    let input : TypedInput := { keyboard := .new layout, arrivals, closing }
    let session : Session TypedInput Displays :=
      { run := { machine }, input, display := displays }
    (∀ cycles reached, session.loop .typed display pacing clock cycles = (none, reached) →
      ∀ key : Fin 16, reached.run.machine.keypad.mask.toNat.testBit key.val =
        (getElem reached.input.keyboard.held key key.isLt).isSome) ∧
    (∀ most key, (session.runFor .typed display pacing clock most).1 ≠
      some (.error (.machine (.keyOutOfRange key)))) ∧
    (∀ cycle stride, session.strideIn? .typed display pacing clock cycle = some stride →
      ∀ x, let step := stride.machine.step stride.time delayPeriod
        (step.1 = .ok (.skip (.pressed x)) →
          stride.machine.SkipsIff step.2 (FindsDown input cycle stride.machine x)) ∧
        (step.1 = .ok (.skip (.released x)) →
          stride.machine.SkipsIff step.2 (¬ FindsDown input cycle stride.machine x))) ∧
    ((∀ poll, closing poll ≤ closing (poll + 1)) →
      ∀ key poll, input.HeldAfter key (poll + 1) ↔ input.Recent key poll) := by
  intro input session
  have fresh : Typed input 0 session :=
    ⟨rfl, show Mirrors machine.keypad _ from idle ▸ mirrors_new layout⟩
  have empty : ∀ key : Fin 16, input.keyboard.held[key] = none := fun key => by
    simp [input, Keyboard.new]
  refine ⟨?_, runFor_ne_keyOutOfRange display pacing clock fresh, ?_, ?_⟩
  · intro cycles reached looped
    have typed := (loop_typed display pacing clock fresh cycles).1 (congrArg Prod.fst looped)
    rw [looped] at typed
    exact typed.mirrors.down
  · intro cycle stride made x step
    have down := holds_pressed_iff display pacing clock fresh rfl empty made x
    refine ⟨fun skipped => Machine.skipsIff_of_step skipped down, fun skipped => ?_⟩
    refine Machine.skipsIff_of_step skipped ?_
    rw [Machine.holds, Bool.not_eq_true', ← Bool.not_eq_true]
    exact not_congr down
  · intro nondecreasing key poll
    exact TypedInput.heldAfter_succ_iff_recent nondecreasing

/-- A key typed before the second poll is down in the second cycle, and no longer at the poll
that ends exactly the hold time after it. -/
theorem keypad_mirrors_keyboard_expired :
    let machine := ((Machine.new (.counter 0 1)).performAll
      [.load [0x60, 0x05, 0xe0, 0x9e, 0x12, 0x02, 0x12, 0x02]]).2
    let arrivals : Nat → List (Nat × TerminalEvent) := fun poll =>
      if poll = 1 then [(30000000, .character 'W')] else []
    let input : TypedInput :=
      { keyboard := .new .conventional, arrivals, closing := fun poll => poll * 50000000 }
    let session : Session TypedInput FrameLog := { run := { machine }, input, display := {} }
    let strideIn? := session.strideIn? .typed .log {} (Pacing.idealClock {})
    machine.keypad = .idle ∧
      (∃ second, strideIn? 1 = some second ∧ FindsDown input 1 second.machine 0) ∧
      ∃ fourth, strideIn? 3 = some fourth ∧ ¬ FindsDown input 3 fourth.machine 0 := by
  intro machine arrivals input session strideIn?
  have idle : machine.keypad = .idle := by decide +kernel
  obtain ⟨-, -, strides, -⟩ := keypad_mirrors_keyboard .log {} (Pacing.idealClock {}) idle
    .conventional arrivals (fun poll => poll * 50000000) {}
  have skips : ∀ cycle ∈ [1, 3], ((strideIn? cycle).map fun stride =>
      ((stride.machine.step stride.time delayPeriod).1, stride.machine.counter,
        stride.after.counter)) =
      some (.ok (.skip (.pressed 0)), 0x202, if cycle = 1 then 0x206 else 0x204) := by
    decide +kernel
  obtain ⟨second, madeSecond, wentSecond⟩ := Option.map_eq_some_iff.mp (skips 1 (by decide))
  obtain ⟨fourth, madeFourth, wentFourth⟩ := Option.map_eq_some_iff.mp (skips 3 (by decide))
  simp only [Prod.mk.injEq] at wentSecond wentFourth
  obtain ⟨skipped, before, after⟩ := wentSecond
  obtain ⟨skippedThen, beforeThen, afterThen⟩ := wentFourth
  refine ⟨idle, ⟨second, madeSecond, ?_⟩, fourth, madeFourth, ?_⟩
  · rcases (strides 1 second madeSecond 0).1 skipped with ⟨down, -⟩ | ⟨-, straight⟩
    · exact down
    · rw [before] at straight
      exact absurd (straight.symm.trans after) (by decide)
  · rcases (strides 3 fourth madeFourth 0).1 skippedThen with ⟨-, further⟩ | ⟨up, -⟩
    · rw [beforeThen] at further
      exact absurd (further.symm.trans afterThen) (by decide)
    · exact up

end Session

end ChipEight
