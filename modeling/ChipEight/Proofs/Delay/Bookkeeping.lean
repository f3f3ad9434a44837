import ChipEight.Proofs.Machine.Frame

/-!
# Bookkeeping of the delay timer

When a step counts the delay timer down, and what every operation does to the timer and
to the tick it remembers.
-/

set_option autoImplicit false

namespace ChipEight

theorem toNat_sub_one {value : UInt8} (running : value ≠ 0) :
    (value - 1).toNat = value.toNat - 1 := by
  have positive : 0 < value.toNat := UInt8.lt_iff_toNat_lt.mp (UInt8.pos_iff_ne_zero.mpr running)
  exact UInt8.toNat_sub_of_le value 1 (UInt8.le_iff_toNat_le.mpr positive)

namespace Machine

theorem toNat_delayAge (machine : Machine) (now : UInt64) :
    (machine.delayAge now).toNat = now.toNat - machine.delaySince.toNat := by
  unfold delayAge
  split
  case isTrue later => exact UInt64.toNat_sub_of_le now machine.delaySince later
  case isFalse earlier =>
      have behind : now.toNat < machine.delaySince.toNat := by
        simpa [UInt64.le_iff_toNat_le] using earlier
      rw [Nat.sub_eq_zero_of_le (Nat.le_of_lt behind)]
      rfl

/-- A step at this time would count the delay timer down: it runs, and more than a period
has gone by since its last tick. -/
def DelayDue (machine : Machine) (now period : UInt64) : Prop :=
  machine.delay ≠ 0 ∧ machine.delaySince.toNat + period.toNat < now.toNat

instance (machine : Machine) (now period : UInt64) :
    Decidable (machine.DelayDue now period) :=
  inferInstanceAs (Decidable (_ ∧ _))

theorem delayDue_iff (machine : Machine) (now period : UInt64) :
    machine.DelayDue now period ↔ 0 < machine.delay ∧ period < machine.delayAge now := by
  rw [DelayDue, UInt64.lt_iff_toNat_lt, toNat_delayAge, UInt8.pos_iff_ne_zero]
  exact and_congr_right fun _ => by omega

theorem keepTime_of_due {machine : Machine} {now period : UInt64}
    (due : machine.DelayDue now period) :
    machine.keepTime now period =
      { machine with now, delay := machine.delay - 1, delaySince := now } := by
  rw [keepTime, if_pos ((delayDue_iff machine now period).mp due)]

theorem keepTime_of_not_due {machine : Machine} {now period : UInt64}
    (early : ¬ machine.DelayDue now period) :
    machine.keepTime now period = { machine with now } := by
  rw [keepTime, if_neg fun due => early ((delayDue_iff machine now period).mpr due)]

/-! ## What moves the delay timer -/

theorem delayTimer_press (machine : Machine) (key : UInt8) :
    (machine.press key).2.delayTimer = machine.delayTimer := by
  rw [press_eq]
  rfl

theorem delayTimer_release (machine : Machine) (key : UInt8) :
    (machine.release key).2.delayTimer = machine.delayTimer := by
  rw [release_eq]
  rfl

/-- A step of a running machine that does not set the delay timer moves it as the
bookkeeping does, whether the step succeeds or fails. -/
theorem delayTimer_step {machine : Machine} {now period : UInt64}
    (running : machine.awaiting = none)
    (other : ∀ x, (machine.step now period).1 ≠ .ok (.setDelay x)) :
    (machine.step now period).2.delayTimer = (machine.keepTime now period).delayTimer := by
  rcases step_cases machine now period with ⟨waiting, -⟩ | ⟨-, fault, -, failed⟩ |
    ⟨-, instruction, -, -, executed⟩
  · exact absurd running waiting
  · rw [failed]
    rfl
  · rw [executed] at other ⊢
    have kept : ∀ x, instruction ≠ .setDelay x := fun x same => other x (by rw [same])
    exact (framed_execute _ instruction).delayTimer kept

/-- A step that sets the delay timer takes the value from its register and the time from
its host. -/
theorem delayTimer_step_of_setDelay {machine : Machine} {now period : UInt64} {x : Register}
    (stored : (machine.step now period).1 = .ok (.setDelay x)) :
    (machine.step now period).2.delayTimer = ⟨machine.register x, now⟩ := by
  rcases step_cases machine now period with ⟨-, refused⟩ | ⟨-, fault, -, failed⟩ |
    ⟨-, instruction, -, -, executed⟩
  · rw [refused] at stored
    cases stored
  · rw [failed] at stored
    cases stored
  · rw [executed] at stored ⊢
    cases stored
    by_cases due : machine.DelayDue now period
    · simp [ready, execute, delayTimer, register, advance, keepTime_of_due due]
    · simp [ready, execute, delayTimer, register, advance, keepTime_of_not_due due]

end Machine

end ChipEight
