import ChipEight.Run.Session

/-!
# Turns of the loop

The loop of a run cut into its turns, from the front and from the end, and what of a turn
the machine can feel: the cycle, but neither the frame after it nor the one on the way out.
-/

set_option autoImplicit false

namespace ChipEight

/-! ## The step of a cycle -/

namespace Machine

theorem stepUnlessAwaiting_of_running {machine : Machine} (running : machine.awaiting = none)
    (now : Nat) :
    (machine.stepUnlessAwaiting now).2 = (machine.step (UInt64.ofNat now) delayPeriod).2 := by
  rw [stepUnlessAwaiting, running]
  rcases machine.step (UInt64.ofNat now) delayPeriod with ⟨outcome, next⟩
  cases outcome with
  | error fault => rfl
  | ok instruction => rfl

theorem stepUnlessAwaiting_of_waiting {machine : Machine} (waiting : machine.awaiting ≠ none)
    (now : Nat) : machine.stepUnlessAwaiting now = (.ok (), machine) := by
  obtain ⟨register, awaited⟩ := Option.ne_none_iff_exists'.mp waiting
  rw [stepUnlessAwaiting, awaited]

end Machine

theorem Run.machine_stepAndCount (pacing : Pacing) (reading : Reading) (run : Run) :
    (run.stepAndCount pacing reading).2.machine =
      (run.machine.stepUnlessAwaiting reading.stepTime).2 := by
  rw [stepAndCount]
  rcases run.machine.stepUnlessAwaiting reading.stepTime with ⟨outcome, machine⟩
  cases outcome with
  | error fault => rfl
  | ok done =>
      dsimp only
      split <;> rfl

/-! ## Turns -/

namespace Session

variable {Inputs Displays : Type} (input : InputDevice Inputs) (display : DisplayDevice Displays)
  (pacing : Pacing) (clock : Clock)

/-- Drawing a frame changes nothing but the display. -/
theorem draw_eq (session : Session Inputs Displays) :
    ∃ outcome displays,
      draw display session = (outcome, { session with display := displays }) :=
  ⟨_, _, rfl⟩

/-- A turn leaves the run as its cycle does, and then the loop has ended or goes on from
there, however far it is followed. -/
theorem loop_turn (session : Session Inputs Displays) :
    ∃ (outcome : Option (Except RunFailure Nat)) (reached : Session Inputs Displays),
      (reached.run =
        if pacing.spent session.run.cycles then session.run
        else
          (session.run.cycle pacing (input.poll session.input).1 (clock session.run.cycles)).2) ∧
      ∀ more, session.loop input display pacing clock (more + 1) =
        match outcome with
        | none => reached.loop input display pacing clock more
        | some ended => (some ended, reached) := by
  simp only [loop]
  cases pacing.spent session.run.cycles with
  | true => exact ⟨some _, session, rfl, fun _ => rfl⟩
  | false =>
      rcases session.run.cycle pacing (input.poll session.input).1 (clock session.run.cycles)
        with ⟨went, run⟩
      cases went with
      | ended outcome =>
          exact ⟨some outcome, { session with run, input := (input.poll session.input).2 }, rfl,
            fun _ => rfl⟩
      | completed due =>
          cases due with
          | false =>
              exact ⟨none, { session with run, input := (input.poll session.input).2 }, rfl,
                fun _ => rfl⟩
          | true =>
              obtain ⟨outcome, displays, drawn⟩ :=
                draw_eq display { session with run, input := (input.poll session.input).2 }
              dsimp only at drawn ⊢
              rw [drawn]
              cases outcome with
              | error cause => exact ⟨some (.error (.device cause)), _, rfl, fun _ => rfl⟩
              | ok done => exact ⟨none, _, rfl, fun _ => rfl⟩

theorem loop_succ_first (more : Nat) (session : Session Inputs Displays) :
    session.loop input display pacing clock (more + 1) =
      match session.loop input display pacing clock 1 with
      | (none, reached) => reached.loop input display pacing clock more
      | (some outcome, reached) => (some outcome, reached) := by
  obtain ⟨outcome, reached, -, turn⟩ := loop_turn input display pacing clock session
  rw [turn more, turn 0]
  cases outcome with
  | none => rfl
  | some ended => rfl

/-- A run that is followed one cycle further has ended before or makes that cycle. -/
theorem loop_succ_last (most : Nat) (session : Session Inputs Displays) :
    session.loop input display pacing clock (most + 1) =
      match session.loop input display pacing clock most with
      | (none, reached) => reached.loop input display pacing clock 1
      | (some outcome, reached) => (some outcome, reached) := by
  induction most generalizing session with
  | zero => rfl
  | succ more ih =>
      rw [loop_succ_first input display pacing clock (more + 1),
        loop_succ_first input display pacing clock more]
      rcases session.loop input display pacing clock 1 with ⟨outcome, reached⟩
      cases outcome with
      | none => exact ih reached
      | some outcome => rfl

theorem run_loop_one (session : Session Inputs Displays) :
    (session.loop input display pacing clock 1).2.run =
      if pacing.spent session.run.cycles then session.run
      else
        (session.run.cycle pacing (input.poll session.input).1 (clock session.run.cycles)).2 := by
  obtain ⟨outcome, reached, kept, turn⟩ := loop_turn input display pacing clock session
  rw [turn 0]
  cases outcome with
  | none => exact kept
  | some ended => exact kept

/-- A turn finds the limit reached, ends the run with its cycle, or completes the cycle and
goes on unless the frame cannot be drawn. -/
theorem loop_one_cases (session : Session Inputs Displays) :
    (session.loop input display pacing clock 1 = (some (.ok session.run.cycles), session)) ∨
    (∃ ended, (session.run.cycle pacing (input.poll session.input).1
        (clock session.run.cycles)).1 = .ended ended ∧
      (session.loop input display pacing clock 1).1 = some ended) ∨
    (∃ due, session.run.cycle pacing (input.poll session.input).1 (clock session.run.cycles) =
        (.completed due, (session.loop input display pacing clock 1).2.run) ∧
      (session.loop input display pacing clock 1).2.input = (input.poll session.input).2 ∧
      ((session.loop input display pacing clock 1).1 = none ∨
        ∃ cause, (session.loop input display pacing clock 1).1 = some (.error (.device cause)))) := by
  simp only [loop]
  cases pacing.spent session.run.cycles with
  | true => exact .inl rfl
  | false =>
      rcases session.run.cycle pacing (input.poll session.input).1 (clock session.run.cycles)
        with ⟨went, run⟩
      cases went with
      | ended outcome => exact .inr (.inl ⟨outcome, rfl, rfl⟩)
      | completed due =>
          refine .inr (.inr ⟨due, ?_⟩)
          cases due with
          | false => exact ⟨rfl, rfl, .inl rfl⟩
          | true =>
              obtain ⟨outcome, displays, drawn⟩ :=
                draw_eq display { session with run, input := (input.poll session.input).2 }
              dsimp only at drawn ⊢
              rw [drawn]
              cases outcome with
              | error cause => exact ⟨rfl, rfl, .inr ⟨cause, rfl⟩⟩
              | ok done => exact ⟨rfl, rfl, .inl rfl⟩

theorem run_runFor (most : Nat) (session : Session Inputs Displays) :
    (session.runFor input display pacing clock most).2.run =
      (session.loop input display pacing clock most).2.run := by
  rw [runFor]
  rcases session.loop input display pacing clock most with ⟨outcome, last⟩
  cases outcome with
  | none => rfl
  | some ended =>
      obtain ⟨outcome, displays, drawn⟩ := draw_eq display last
      dsimp only
      rw [drawn]
      cases outcome with
      | error cause => rfl
      | ok done => rfl

end Session

end ChipEight
