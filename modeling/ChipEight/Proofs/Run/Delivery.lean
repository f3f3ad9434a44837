import ChipEight.Run.Cycle

/-!
# Delivery of a batch

What a machine takes of a batch of events: all up to the first that concerns no key.
-/

set_option autoImplicit false

namespace ChipEight

namespace PadEvent

/-- The event concerns a key that there is. -/
def concernsKey : PadEvent → Bool
  | .press key | .release key => key ≤ 0xf
  | .quit => false

/-- How an event that concerns no key ends the delivery. -/
def ending : PadEvent → Except Fault Bool
  | .press key | .release key => .error (.keyOutOfRange key)
  | .quit => .ok false

end PadEvent

namespace Machine

/-- The machine after an event, whether it was taken or refused. -/
def afterEvent (machine : Machine) : PadEvent → Machine
  | .press key => (machine.press key).2
  | .release key => (machine.release key).2
  | .quit => machine

theorem deliver_of_concernsKey {event : PadEvent} (taken : event.concernsKey = true)
    (machine : Machine) (later : List PadEvent) :
    machine.deliver (event :: later) = (machine.afterEvent event).deliver later := by
  cases event with
  | quit => cases taken
  | press key =>
      have small : ¬ key > 0xf := UInt8.not_lt.mpr (of_decide_eq_true taken)
      rw [deliver, afterEvent, press, if_neg small]
  | release key =>
      have small : ¬ key > 0xf := UInt8.not_lt.mpr (of_decide_eq_true taken)
      rw [deliver, afterEvent, release, if_neg small]

theorem deliver_of_not_concernsKey {event : PadEvent} (refused : event.concernsKey = false)
    (machine : Machine) (later : List PadEvent) :
    machine.deliver (event :: later) = (event.ending, machine) := by
  cases event with
  | quit => rfl
  | press key =>
      have large : key > 0xf := UInt8.not_le.mp (of_decide_eq_false refused)
      rw [deliver, press, if_pos large]
      rfl
  | release key =>
      have large : key > 0xf := UInt8.not_le.mp (of_decide_eq_false refused)
      rw [deliver, release, if_pos large]
      rfl

theorem deliver_eq (machine : Machine) (events : List PadEvent) :
    machine.deliver events =
      (match events.find? fun event => !event.concernsKey with
        | none => .ok true
        | some event => event.ending,
        (events.takeWhile PadEvent.concernsKey).foldl afterEvent machine) := by
  induction events generalizing machine with
  | nil => rfl
  | cons event later ih =>
      cases taken : event.concernsKey with
      | true =>
          rw [deliver_of_concernsKey taken, ih]
          simp [taken]
      | false =>
          rw [deliver_of_not_concernsKey taken]
          simp [taken]

end Machine

end ChipEight
