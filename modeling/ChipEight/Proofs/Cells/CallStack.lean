import ChipEight.Proofs.Cells.Safety
import ChipEight.Proofs.Machine.CallStack

/-!
# The call stack in slots

The sixteen slots with a depth beside them are the call stack of the machine: what the
slots from the depth on hold makes no difference to anything that comes later.
-/

set_option autoImplicit false

namespace ChipEight

/-- Slots whose first entries are the stack's, the oldest first, hold the stack. -/
theorem stacked_of_take_eq {slots : Array UInt16} {stack : List UInt16}
    (size : slots.size = callDepthLimit)
    (entries : slots.toList.take stack.length = stack.reverse) : Stacked slots stack :=
  ⟨size, entries ▸ List.take_prefix stack.length slots.toList⟩

theorem Stacked.take_eq {slots : Array UInt16} {stack : List UInt16}
    (stacked : Stacked slots stack) : slots.toList.take stack.length = stack.reverse := by
  have whole := List.prefix_iff_eq_take.mp stacked.holds
  rw [List.length_reverse] at whole
  exact whole.symm

namespace CellMachine

open Machine

/-- The return addresses of the calls under way, the oldest first. -/
def entries (machine : CellMachine) : List UInt16 :=
  machine.slots.toList.take machine.depth

/-- Calls and returns keep to their discipline. The slots and their depth are the call
stack, of which a call pushes the address behind itself and a return pops the newest entry,
within the limit; its height counts the calls less the returns since the program was
loaded; stale slots have no influence on what comes later; and a return that first comes
down to the height of a call continues behind that call, with the stack that it found. -/
theorem callStack_discipline (random : RandomBytes) (operations : List Operation) :
    let machine := ((Machine.new random).performAll operations).2
    let replies := repliesSinceLoad ((Machine.new random).history operations)
    ∃ cells : CellMachine,
      run random operations =
        .ok (((Machine.new random).performAll operations).1, cells) ∧
      cells.slots.size = 16 ∧ cells.depth ≤ 16 ∧
      cells.entries = machine.stack.reverse ∧ cells.entries.length = cells.depth ∧
      (∀ operation, StackMove machine operation (machine.perform operation).1
        (machine.perform operation).2) ∧
      cells.depth + replies.countP Reply.returns = replies.countP Reply.calls ∧
      (∀ stale : Array UInt16, stale.size = 16 →
        stale.toList.take cells.depth = cells.entries →
        ∀ later, ∃ answers left right,
          cells.performAll later = .ok (answers, left) ∧
          { cells with slots := stale }.performAll later = .ok (answers, right) ∧
          right = { left with slots := right.slots } ∧ right.entries = left.entries) ∧
      ∀ (now period after pace : UInt64) (target : Address) (called returned : Machine)
        (between : List Operation),
        machine.step now period = (.ok (.call target), called) →
        (∀ operation ∈ between, operation.loads = false) →
        (∀ earlier rest, between = earlier ++ rest →
          machine.stack.length < (called.performAll earlier).2.stack.length) →
        (called.performAll between).2.stack.length = machine.stack.length + 1 →
        (called.performAll between).2.step after pace = (.ok .ret, returned) →
        returned.stack = machine.stack ∧ returned.counter = machine.counter + 2 := by
  intro machine replies
  obtain ⟨slots, stacked, placed, -, performed⟩ :=
    performAll_inCells (Machine.new random) (Array.replicate callDepthLimit 0) rfl
      (.nil (by simp)) operations
  have entries : (machine.inCells slots).entries = machine.stack.reverse := stacked.take_eq
  refine ⟨machine.inCells slots, ?_, stacked.size, stacked.depth_le, entries, ?_,
    machine.stackMove_perform, length_stack_add_returns random operations, ?_, ?_⟩
  · rw [run, new_inCells, Cells.ok_bind, performed]
  · rw [entries, List.length_reverse]
    rfl
  · intro stale size same later
    have held : Stacked stale machine.stack :=
      stacked_of_take_eq size (same.trans entries)
    obtain ⟨left, leftHeld, -, -, performedLeft⟩ :=
      performAll_inCells machine slots placed stacked later
    obtain ⟨right, rightHeld, -, -, performedRight⟩ :=
      performAll_inCells machine stale placed held later
    refine ⟨_, _, _, performedLeft, performedRight, rfl, ?_⟩
    exact rightHeld.take_eq.trans leftHeld.take_eq.symm
  · intro now period after pace target called returned between call stay deep down ret
    exact matching_return call stay deep down ret

/-- A call from inside a subroutine, whose own subroutine calls deeper, waits for a key
there and comes back. -/
theorem callStack_discipline_nested :
    let program : List UInt8 :=
      [0x22, 0x04, 0x00, 0xe0, 0x22, 0x08, 0x00, 0xe0, 0x22, 0x0c, 0x00, 0xee, 0xf0, 0x0a,
        0x00, 0xee]
    let machine := ((Machine.new (.counter 0 1)).performAll [.load program, .step 0 1]).2
    let called := (machine.step 1 1).2
    let between : List Operation := [.step 2 1, .step 3 1, .press 4, .step 5 1]
    let returned := ((called.performAll between).2.step 6 1).2
    machine.stack = [0x202] ∧ (machine.step 1 1).1 = .ok (.call 0x208) ∧
      (called.performAll between).1 =
        [.executed (.call 0x20c), .executed (.awaitKey 0), .done, .executed .ret] ∧
      ((called.performAll between).2.step 6 1).1 = .ok .ret ∧
      returned.stack = [0x202] ∧ returned.counter = 0x206 := by
  intro program machine called between returned
  obtain ⟨stack, counter, call, replies, down, ret⟩ :
      machine.stack = [0x202] ∧ machine.counter = 0x204 ∧
      (machine.step 1 1).1 = .ok (.call 0x208) ∧
      (called.performAll between).1 =
        [.executed (.call 0x20c), .executed (.awaitKey 0), .done, .executed .ret] ∧
      (called.performAll between).2.stack.length = machine.stack.length + 1 ∧
      ((called.performAll between).2.step 6 1).1 = .ok .ret := by decide +kernel
  have deep : ∀ earlier rest, between = earlier ++ rest →
      machine.stack.length < (called.performAll earlier).2.stack.length := by
    intro earlier rest parts
    have heights : ∀ count ≤ 4,
        machine.stack.length < (called.performAll (between.take count)).2.stack.length := by
      decide +kernel
    have start : earlier = between.take earlier.length := by
      rw [parts, List.take_left]
    rw [start]
    have whole : 4 = earlier.length + rest.length := by
      rw [← List.length_append, ← parts]
      rfl
    exact heights earlier.length (whole ▸ Nat.le_add_right _ _)
  obtain ⟨-, -, -, -, -, -, -, -, -, matching⟩ :=
    callStack_discipline (.counter 0 1) [.load program, .step 0 1]
  obtain ⟨same, back⟩ := matching 1 1 6 1 0x208 called returned between
    (Prod.ext call rfl) (by decide) deep down (Prod.ext ret rfl)
  rw [stack] at same
  rw [counter] at back
  exact ⟨stack, call, replies, ret, same, back⟩

end CellMachine

end ChipEight
