import ChipEight.Proofs.Run.Driver

/-!
# The driver turn by turn

The driver of a run cut in two anywhere, what one turn of it counts and what a whole run
counts, and a run with a limit as one without, cut off where the limit is reached.
-/

set_option autoImplicit false

namespace ChipEight

/-! ## Turns -/

section

variable (limit : Option UInt64) (times : Nat → UInt64)

theorem drive_succ_first (more : Nat) (progress : Progress) :
    drive limit times (more + 1) progress =
      match drive limit times 1 progress with
      | (none, reached) => drive limit times more reached
      | (some ending, reached) => (some ending, reached) := by
  simp only [drive]
  cases limit.any fun most => most.toNat ≤ progress.cycles with
  | true => rfl
  | false =>
      cases progress.batchEnding? with
      | some ending => rfl
      | none =>
          cases progress.takeBatch.machine.awaiting with
          | some register => rfl
          | none =>
              rcases progress.takeBatch.machine.step (times progress.cycles) 16666666
                with ⟨outcome, machine⟩
              cases outcome with
              | error fault => rfl
              | ok instruction => rfl

theorem drive_add (first second : Nat) (progress : Progress) :
    drive limit times (first + second) progress =
      match drive limit times first progress with
      | (none, reached) => drive limit times second reached
      | (some ending, reached) => (some ending, reached) := by
  induction first generalizing progress with
  | zero => rw [Nat.zero_add]; rfl
  | succ first ih =>
      rw [Nat.succ_add, drive_succ_first, drive_succ_first limit times first]
      rcases drive limit times 1 progress with ⟨ending, reached⟩
      cases ending with
      | none => exact ih reached
      | some ending => rfl

end

/-- A turn that no limit can end. -/
theorem drive_one (times : Nat → UInt64) (progress : Progress) :
    drive none times 1 progress =
      match progress.batchEnding? with
      | some ending => (some ending, progress.takeBatch)
      | none =>
        match progress.takeBatch.machine.awaiting with
        | some _ => (none, { progress.takeBatch with cycles := progress.cycles + 1 })
        | none =>
          match progress.takeBatch.machine.step (times progress.cycles) delayPeriod with
          | (.error fault, machine) =>
            (some (.failedStep fault), { progress.takeBatch with machine })
          | (.ok _, machine) =>
            (none, { progress.takeBatch with machine, cycles := progress.cycles + 1 }) := by
  simp only [drive, Option.any_none, Bool.false_eq_true, if_false]
  cases progress.batchEnding? with
  | some ending => rfl
  | none =>
      cases progress.takeBatch.machine.awaiting with
      | some register => rfl
      | none => rfl

/-- A turn takes one batch with one poll, and is counted unless it ends the run. -/
theorem counts_of_turn {times : Nat → UInt64} {progress next : Progress}
    {ending : Option Ending} (turned : drive none times 1 progress = (ending, next)) :
    next.unread = progress.unread.tail ∧ next.polls = progress.polls + 1 ∧
      next.cycles = if ending.isNone then progress.cycles + 1 else progress.cycles := by
  rw [drive_one] at turned
  cases found : progress.batchEnding? with
  | some early =>
      rw [found] at turned
      cases turned
      exact ⟨rfl, rfl, rfl⟩
  | none =>
      rw [found] at turned
      cases waiting : progress.takeBatch.machine.awaiting with
      | some register =>
          rw [waiting] at turned
          cases turned
          exact ⟨rfl, rfl, rfl⟩
      | none =>
          rw [waiting] at turned
          dsimp only at turned
          rcases stepped : progress.takeBatch.machine.step (times progress.cycles) delayPeriod
            with ⟨outcome, machine⟩
          rw [stepped] at turned
          cases outcome with
          | error fault =>
              cases turned
              exact ⟨rfl, rfl, rfl⟩
          | ok instruction =>
              cases turned
              exact ⟨rfl, rfl, rfl⟩

theorem counts_of_going {times : Nat → UInt64} {most : Nat} {progress reached : Progress}
    (drove : drive none times most progress = (none, reached)) :
    reached.unread = progress.unread.drop most ∧ reached.polls = progress.polls + most ∧
      reached.cycles = progress.cycles + most := by
  induction most generalizing progress with
  | zero =>
      cases drove
      exact ⟨rfl, rfl, rfl⟩
  | succ more ih =>
      rw [drive_succ_first] at drove
      rcases turned : drive none times 1 progress with ⟨ending, next⟩
      rw [turned] at drove
      cases ending with
      | some ending => cases drove
      | none =>
          obtain ⟨unread, polls, cycles⟩ := counts_of_turn turned
          obtain ⟨unreadLater, pollsLater, cyclesLater⟩ := ih drove
          have cycles : next.cycles = progress.cycles + 1 := cycles
          exact ⟨by rw [unreadLater, unread, List.drop_tail], by omega, by omega⟩

theorem cycles_lt_of_ended {times : Nat → UInt64} {most : Nat} {progress reached : Progress}
    {ending : Ending} (drove : drive none times most progress = (some ending, reached)) :
    reached.cycles < progress.cycles + most := by
  induction most generalizing progress with
  | zero => cases drove
  | succ more ih =>
      rw [drive_succ_first] at drove
      rcases turned : drive none times 1 progress with ⟨first, next⟩
      rw [turned] at drove
      obtain ⟨-, -, cycles⟩ := counts_of_turn turned
      cases first with
      | none =>
          have cycles : next.cycles = progress.cycles + 1 := cycles
          have later := ih drove
          omega
      | some first =>
          cases drove
          have cycles : reached.cycles = progress.cycles := cycles
          omega

/-! ## The limit -/

theorem drive_within_limit {limit : UInt64} {times : Nat → UInt64} {most : Nat}
    {progress : Progress} (within : progress.cycles + most ≤ limit.toNat) :
    drive (some limit) times most progress = drive none times most progress := by
  induction most generalizing progress with
  | zero => rfl
  | succ more ih =>
      have under : ¬ limit.toNat ≤ progress.cycles := by omega
      have turn : drive (some limit) times 1 progress = drive none times 1 progress := by
        simp only [drive, Option.any_some, Option.any_none, decide_eq_false under]
      rw [drive_succ_first, drive_succ_first none, turn]
      rcases turned : drive none times 1 progress with ⟨first, next⟩
      cases first with
      | none =>
          have cycles : next.cycles = progress.cycles + 1 := (counts_of_turn turned).2.2
          exact ih (by omega)
      | some first => rfl

/-- Drives a machine for so many cycles and no further. -/
def driveUpTo (most : Nat) (times : Nat → UInt64) (progress : Progress) : Ending × Progress :=
  match drive none times most progress with
  | (none, reached) => (.limit, reached)
  | (some ending, reached) => (ending, reached)

theorem driveUpTo_add {first : Nat} {times : Nat → UInt64} {progress reached : Progress}
    (drove : drive none times first progress = (none, reached)) (second : Nat) :
    driveUpTo (first + second) times progress = driveUpTo second times reached := by
  rw [driveUpTo, drive_add, drove, driveUpTo]

/-- Only a run that nothing else has ended counts all the cycles that it may take. -/
theorem going_of_outcome {most : Nat} {times : Nat → UInt64} {progress : Progress}
    (full : (driveUpTo most times progress).1.outcome (driveUpTo most times progress).2.cycles =
      .ok (progress.cycles + most)) :
    drive none times most progress = (none, (driveUpTo most times progress).2) := by
  unfold driveUpTo at full ⊢
  rcases drove : drive none times most progress with ⟨ending, reached⟩
  rw [drove] at full
  cases ending with
  | none => rfl
  | some ending =>
      have counted : reached.cycles = progress.cycles + most := (Session.outcome_eq_ok full).2
      have fewer := cycles_lt_of_ended drove
      omega

theorem drive_limit (limit : UInt64) (times : Nat → UInt64) {progress : Progress}
    (new : progress.cycles = 0) :
    drive (some limit) times (limit.toNat + 1) progress =
      (some (driveUpTo limit.toNat times progress).1,
        (driveUpTo limit.toNat times progress).2) := by
  rw [drive_add, drive_within_limit (by omega), driveUpTo]
  rcases drove : drive none times limit.toNat progress with ⟨ending, reached⟩
  cases ending with
  | some ending => rfl
  | none =>
      have cycles := (counts_of_going drove).2.2
      have spent : limit.toNat ≤ reached.cycles := by omega
      simp only [drive, Option.any_some, decide_eq_true spent, if_true]

end ChipEight
