import ChipEight.Proofs.Delay.Bookkeeping
import ChipEight.Proofs.Machine.History
import Mathlib.Data.List.Chain

/-!
# Rate of the delay timer

How far the delay timer has come after a history of steps and key events that follows the
step which set it. It counts at most once in a little more than a period, and falls behind
that by no more than the spacing of the steps for each count.
-/

set_option autoImplicit false

namespace ChipEight

/-! ## Histories -/

namespace Operation

/-- The time of a step, unless it was refused because a key press is awaited. -/
def takenAt? : Operation → Reply → Option UInt64
  | .step _ _, .refused .awaitingKey => none
  | .step now _, _ => some now
  | _, _ => none

end Operation

namespace Machine

/-- The times of the steps taken in a history, the refused ones left out. -/
def takenTimes (machine : Machine) : List Operation → List UInt64
  | [] => []
  | operation :: later =>
    let (reply, next) := machine.perform operation
    (operation.takenAt? reply).toList ++ next.takenTimes later

theorem takenTimes_cons (machine : Machine) (operation : Operation) (later : List Operation) :
    machine.takenTimes (operation :: later) =
      (operation.takenAt? (machine.perform operation).1).toList ++
        (machine.perform operation).2.takenTimes later := rfl

/-- A history that lets the delay timer run down: one period for all steps, no loading,
no step that sets the timer, and no step before the one taken last. -/
structure Undisturbed (period : UInt64) (machine : Machine) (last : UInt64)
    (operations : List Operation) : Prop where
  samePeriod : ∀ now other, Operation.step now other ∈ operations → other = period
  neverLoads : ∀ operation ∈ operations, operation.loads = false
  neverSets : ∀ x, Reply.executed (.setDelay x) ∉ (machine.performAll operations).1
  inOrder : (last :: machine.takenTimes operations).IsChain (· ≤ ·)

/-- No two steps that follow each other are further apart than the gap. -/
def Spaced (gap : Nat) (times : List UInt64) : Prop :=
  times.IsChain fun earlier later => later.toNat ≤ earlier.toNat + gap

/-- What a request other than loading does to the delay timer, when it does not set it:
a step that is taken does the bookkeeping, and nothing else touches the timer. -/
theorem delayTimer_perform {machine : Machine} {operation : Operation}
    (keeps : operation.loads = false)
    (other : ∀ x, (machine.perform operation).1 ≠ .executed (.setDelay x)) :
    (operation.takenAt? (machine.perform operation).1 = none ∧
      (machine.perform operation).2.delayTimer = machine.delayTimer) ∨
    ∃ now period, operation = .step now period ∧
      operation.takenAt? (machine.perform operation).1 = some now ∧
      (machine.perform operation).2.delayTimer = (machine.keepTime now period).delayTimer := by
  cases operation with
  | step now period =>
      rcases step_cases machine now period with
        ⟨-, refused⟩ | ⟨running, fault, named, failed⟩ | ⟨running, instruction, -, -, executed⟩
      · refine .inl ⟨?_, ?_⟩
        · simp [perform, refused, Reply.ofStep, Operation.takenAt?]
        · simp [perform, refused]
      · refine .inr ⟨now, period, rfl, ?_, delayTimer_step running fun x => by simp [failed]⟩
        cases named <;> simp [perform, failed, Reply.ofStep, Operation.takenAt?]
      · refine .inr ⟨now, period, rfl, ?_, delayTimer_step running fun x same => other x ?_⟩
        · simp [perform, executed, Reply.ofStep, Operation.takenAt?]
        · simp [perform, Reply.ofStep, same]
  | press key => exact .inl ⟨rfl, delayTimer_press machine key⟩
  | release key => exact .inl ⟨rfl, delayTimer_release machine key⟩
  | load program => cases keeps
  | loadFrom stream => cases keeps
  | readSound => exact .inl ⟨rfl, rfl⟩
  | writeSound value => exact .inl ⟨rfl, rfl⟩
  | lowerSound => exact .inl ⟨rfl, rfl⟩

/-! ## The pace of the timer -/

/-- Where the timer stands when the last step taken was at `last`, after it was set to
`stored` at `start` and with steps no further apart than `gap`. -/
structure Pace (period start : UInt64) (stored gap : Nat) (timer : DelayTimer)
    (last : UInt64) : Prop where
  within : timer.value.toNat ≤ stored
  /-- Each count takes more than a period. -/
  slow : start.toNat + (stored - timer.value.toNat) * (period.toNat + 1) ≤ timer.since.toNat
  past : timer.since.toNat ≤ last.toNat
  fresh : timer.value ≠ 0 → last.toNat ≤ timer.since.toNat + period.toNat
  /-- No count takes more than a period and a gap. -/
  quick : timer.value ≠ 0 →
    timer.since.toNat ≤ start.toNat + (stored - timer.value.toNat) * (period.toNat + gap)

theorem pace_start (period start : UInt64) (value : UInt8) (gap : Nat) :
    Pace period start value.toNat gap ⟨value, start⟩ start where
  within := Nat.le_refl _
  slow := by simp
  past := Nat.le_refl _
  fresh := fun _ => Nat.le_add_right _ _
  quick := fun _ => by simp

theorem pace_keepTime {period start last now : UInt64} {stored gap : Nat} {machine : Machine}
    (pace : Pace period start stored gap machine.delayTimer last)
    (later : last ≤ now) (near : now.toNat ≤ last.toNat + gap) :
    Pace period start stored gap (machine.keepTime now period).delayTimer now := by
  obtain ⟨within, slow, past, fresh, quick⟩ := pace
  have order : last.toNat ≤ now.toNat := UInt64.le_iff_toNat_le.mp later
  simp only [delayTimer] at within slow past fresh quick
  by_cases due : machine.DelayDue now period
  · obtain ⟨running, late⟩ := due
    have more : stored - (machine.delay - 1).toNat = stored - machine.delay.toNat + 1 := by
      have positive : machine.delay.toNat ≠ 0 := fun zero =>
        running (UInt8.toNat_inj.mp zero)
      rw [toNat_sub_one running]
      omega
    -- The step before was still within a period of the last tick, so this one, which is no
    -- further than a gap from it, is not late by more than the gap.
    have room := fresh running
    have spacing := quick running
    rw [keepTime_of_due ⟨running, late⟩]
    refine ⟨?_, ?_, Nat.le_refl _, fun _ => Nat.le_add_right _ _, fun _ => ?_⟩
    · simp only [delayTimer, toNat_sub_one running]
      omega
    · simp only [delayTimer, more, Nat.add_mul, Nat.one_mul] at slow ⊢
      omega
    · simp only [delayTimer, more, Nat.add_mul, Nat.one_mul] at spacing ⊢
      omega
  · have still : machine.delay ≠ 0 → now.toNat ≤ machine.delaySince.toNat + period.toNat :=
      fun running => Nat.not_lt.mp fun late => due ⟨running, late⟩
    rw [keepTime_of_not_due due]
    exact ⟨within, slow, Nat.le_trans past order, still, quick⟩

/-! ## Whole histories -/

theorem Undisturbed.tail {period last : UInt64} {machine : Machine} {operation : Operation}
    {later : List Operation} (calm : Undisturbed period machine last (operation :: later)) :
    Undisturbed period (machine.perform operation).2
      ((operation.takenAt? (machine.perform operation).1).getD last) later := by
  obtain ⟨samePeriod, neverLoads, neverSets, inOrder⟩ := calm
  refine ⟨fun now other asked => samePeriod now other (List.mem_cons_of_mem _ asked),
    fun asked among => neverLoads asked (List.mem_cons_of_mem _ among),
    fun x answered => neverSets x ?_, ?_⟩
  · rw [performAll_cons]
    exact List.mem_cons_of_mem _ answered
  · rw [takenTimes_cons] at inOrder
    cases taken : operation.takenAt? (machine.perform operation).1 with
    | none => simpa [taken] using inOrder
    | some now =>
        rw [taken] at inOrder
        exact (List.isChain_cons_cons.mp inOrder).2

theorem Undisturbed.head {period last : UInt64} {machine : Machine} {operation : Operation}
    {later : List Operation} (calm : Undisturbed period machine last (operation :: later)) :
    (operation.takenAt? (machine.perform operation).1 = none ∧
      (machine.perform operation).2.delayTimer = machine.delayTimer) ∨
    ∃ now, operation.takenAt? (machine.perform operation).1 = some now ∧ last ≤ now ∧
      (machine.perform operation).2.delayTimer = (machine.keepTime now period).delayTimer := by
  have keeps := calm.neverLoads operation List.mem_cons_self
  have other : ∀ x, (machine.perform operation).1 ≠ .executed (.setDelay x) := by
    intro x same
    apply calm.neverSets x
    rw [performAll_cons, same]
    exact List.mem_cons_self
  rcases delayTimer_perform keeps other with kept | ⟨now, period', rfl, taken, kept⟩
  · exact .inl kept
  · have same := calm.samePeriod now period' List.mem_cons_self
    subst same
    have inOrder := calm.inOrder
    rw [takenTimes_cons, taken] at inOrder
    exact .inr ⟨now, taken, (List.isChain_cons_cons.mp inOrder).1, kept⟩

theorem pace_performAll {period start last : UInt64} {stored gap : Nat} {machine : Machine}
    {operations : List Operation} (calm : Undisturbed period machine last operations)
    (spaced : Spaced gap (last :: machine.takenTimes operations))
    (pace : Pace period start stored gap machine.delayTimer last) :
    Pace period start stored gap (machine.performAll operations).2.delayTimer
      ((machine.takenTimes operations).getLastD last) := by
  induction operations generalizing machine last with
  | nil => exact pace
  | cons operation later ih =>
      have rest := calm.tail
      rw [takenTimes_cons] at spaced ⊢
      rw [performAll_cons]
      rcases calm.head with ⟨taken, kept⟩ | ⟨now, taken, order, kept⟩
      · rw [taken] at rest spaced ⊢
        exact ih rest spaced (kept ▸ pace)
      · rw [taken] at rest spaced ⊢
        obtain ⟨near, following⟩ := List.isChain_cons_cons.mp spaced
        rw [Option.toList_some, List.singleton_append, List.getLastD_cons]
        exact ih rest following (kept ▸ pace_keepTime pace order near)

theorem delay_keepTime_le (machine : Machine) (now period : UInt64) :
    (machine.keepTime now period).delayTimer.value ≤ machine.delayTimer.value := by
  by_cases due : machine.DelayDue now period
  · rw [keepTime_of_due due, UInt8.le_iff_toNat_le]
    simp only [delayTimer, toNat_sub_one due.1]
    exact Nat.sub_le _ 1
  · rw [keepTime_of_not_due due]
    exact UInt8.le_refl _

/-- In an undisturbed history the timer never goes up, so it does not go on below zero. -/
theorem delay_performAll_le {period last : UInt64} {machine : Machine}
    {operations : List Operation} (calm : Undisturbed period machine last operations) :
    (machine.performAll operations).2.delay ≤ machine.delay := by
  induction operations generalizing machine last with
  | nil => exact UInt8.le_refl _
  | cons operation later ih =>
      have rest := ih calm.tail
      have head : (machine.perform operation).2.delayTimer.value ≤ machine.delayTimer.value := by
        rcases calm.head with ⟨-, kept⟩ | ⟨now, -, -, kept⟩
        · rw [kept]
          exact UInt8.le_refl _
        · rw [kept]
          exact delay_keepTime_le machine now period
      exact UInt8.le_trans rest head

theorem delay_performAll_append_le {period last : UInt64} {machine : Machine}
    (earlier : List Operation) {later : List Operation}
    (calm : Undisturbed period machine last (earlier ++ later)) :
    (machine.performAll (earlier ++ later)).2.delay ≤ (machine.performAll earlier).2.delay := by
  induction earlier generalizing machine last with
  | nil => exact delay_performAll_le calm
  | cons operation following ih => exact ih calm.tail

/-- The rate of the delay timer from both sides. After a step that sets it at `start`, and
an undisturbed history, the timer has counted no more often than once in each period and a
tick; with steps that follow each other within a gap it runs out, or has counted at least
once in each period and gap but for one period. It only goes down. -/
theorem delay_rate {machine : Machine} {x : Register} {start period : UInt64}
    {operations : List Operation}
    (stored : (machine.step start period).1 = .ok (.setDelay x))
    (calm : Undisturbed period (machine.step start period).2 start operations) :
    let set := (machine.step start period).2
    let left := (set.performAll operations).2.delay
    let elapsed := ((set.takenTimes operations).getLastD start).toNat - start.toNat
    ∃ counted ≤ (machine.register x).toNat,
      left.toNat = (machine.register x).toNat - counted ∧
      counted * (period.toNat + 1) ≤ elapsed ∧
      (∀ gap, Spaced gap (start :: set.takenTimes operations) →
        left = 0 ∨ elapsed ≤ counted * (period.toNat + gap) + period.toNat) ∧
      ∀ earlier later, operations = earlier ++ later →
        left ≤ (set.performAll earlier).2.delay := by
  intro set left elapsed
  have timer : set.delayTimer = ⟨machine.register x, start⟩ :=
    delayTimer_step_of_setDelay stored
  have began : ∀ gap, Pace period start (machine.register x).toNat gap set.delayTimer start :=
    fun gap => timer ▸ pace_start period start (machine.register x) gap
  have ever : Spaced UInt64.size (start :: set.takenTimes operations) :=
    (List.pairwise_of_forall fun _ now =>
      Nat.le_add_left_of_le (Nat.le_of_lt now.toNat_lt)).isChain
  obtain ⟨within, slow, past, -, -⟩ := pace_performAll calm ever (began _)
  refine ⟨(machine.register x).toNat - left.toNat, Nat.sub_le _ _, ?_, ?_, ?_, ?_⟩
  · exact (Nat.sub_sub_self within).symm
  · exact Nat.le_sub_of_add_le' (Nat.le_trans slow past)
  · intro gap spaced
    by_cases empty : left = 0
    · exact .inl empty
    · obtain ⟨-, -, -, fresh, quick⟩ := pace_performAll calm spaced (began gap)
      refine .inr (Nat.sub_le_iff_le_add'.mpr ?_)
      rw [← Nat.add_assoc]
      exact Nat.le_trans (fresh empty) (Nat.add_le_add_right (quick empty) _)
  · rintro earlier later rfl
    exact delay_performAll_append_le earlier calm

theorem delay_rate_failing_steps :
    let machine := ((Machine.new (.counter 0 1)).load [0xf0, 0x15]).2.setRegister 0 7
    let operations : List Operation :=
      [.step 5 3, .press 2, .step 9 3, .release 2, .step 14 3]
    (machine.step 0 3).1 = .ok (.setDelay 0) ∧
      Undisturbed 3 (machine.step 0 3).2 0 operations ∧
      ∃ counted ≤ 7, ((machine.step 0 3).2.performAll operations).2.delay.toNat = 7 - counted ∧
        counted * 4 ≤ 14 ∧ 14 ≤ counted * 8 + 3 := by
  intro machine operations
  have stored : (machine.step 0 3).1 = .ok (.setDelay 0) := by decide +kernel
  have replies : ((machine.step 0 3).2.performAll operations).1 =
      [.refused (.unsupportedWord 0), .done, .refused (.unsupportedWord 0), .done,
        .refused (.unsupportedWord 0)] := by decide +kernel
  have taken : (machine.step 0 3).2.takenTimes operations = [5, 9, 14] := by decide +kernel
  have calm : Undisturbed 3 (machine.step 0 3).2 0 operations := by
    refine ⟨?_, by simp [operations, Operation.loads], ?_, ?_⟩
    · intro now other asked
      simp [operations] at asked
      rcases asked with ⟨-, same⟩ | ⟨-, same⟩ | ⟨-, same⟩ <;> exact same
    · rw [replies]
      decide
    · rw [taken]
      decide
  obtain ⟨counted, within, left, slow, quick, -⟩ := delay_rate stored calm
  have register : machine.register 0 = 7 := by decide +kernel
  have spaced : Spaced 5 (0 :: (machine.step 0 3).2.takenTimes operations) := by
    rw [taken]
    unfold Spaced
    decide
  rw [register] at within left
  rw [taken] at slow quick
  have left_ne : ((machine.step 0 3).2.performAll operations).2.delay ≠ 0 := by decide +kernel
  exact ⟨stored, calm, counted, within, left, slow,
    (quick 5 (taken ▸ spaced)).resolve_left left_ne⟩

end Machine

end ChipEight
