import ChipEight.Proofs.Cells.Instruction
import ChipEight.Proofs.Machine.History

/-!
# No operation traps

Every operation on a machine laid out in cells makes all of its accesses, and gives the
reply and the machine that it gives on the machine itself. What it takes is an invariant
that every operation keeps, the failing ones included: the slots hold a call stack
within its limit, and the program has its usual place.
-/

set_option autoImplicit false

namespace ChipEight

namespace CellMachine

/-- All operations from a new machine on. -/
def run (random : RandomBytes) (operations : List Operation) :
    Except Trap (List Reply × CellMachine) := do
  (← new random).performAll operations

end CellMachine

namespace Machine

open Cells

/-! ## Steps and keys -/

theorem keepTime_inCells (machine : Machine) (slots : Array UInt16) (now period : UInt64) :
    (machine.inCells slots).keepTime now period =
      .ok ((machine.keepTime now period).inCells slots) := by
  by_cases due : machine.DelayDue now period
  · have runs : 0 < machine.delay := UInt8.pos_iff_ne_zero.mpr due.1
    have aged : period.toNat < now.toNat - machine.delaySince.toNat := by
      have late := due.2
      omega
    have lowered : less (machine.inCells slots).delay.toNat 1 =
        .ok (machine.delay - 1).toNat := by
      rw [toNat_sub_one due.1]
      exact less_eq _ _ (UInt8.lt_iff_toNat_lt.mp runs)
    rw [CellMachine.keepTime, if_pos ⟨runs, aged⟩, lowered, ok_bind, UInt8.ofNat_toNat,
      keepTime_of_due due]
    rfl
  · have early : ¬ (0 < (machine.inCells slots).delay ∧
        period.toNat < now.toNat - (machine.inCells slots).delaySince.toNat) := by
      rintro ⟨runs, aged⟩
      have late : period.toNat < now.toNat - machine.delaySince.toNat := aged
      exact due ⟨UInt8.pos_iff_ne_zero.mp runs, by omega⟩
    rw [CellMachine.keepTime, if_neg early, keepTime_of_not_due due]
    rfl

theorem step_inCells (machine : Machine) (slots : Array UInt16)
    (stacked : Stacked slots machine.stack) (now period : UInt64) :
    ∃ left, Stacked left (machine.step now period).2.stack ∧
      (machine.inCells slots).step now period =
        .ok ((machine.step now period).1, (machine.step now period).2.inCells left) := by
  cases waiting : machine.awaiting with
  | some register =>
      rw [step_of_awaiting waiting]
      refine ⟨slots, stacked, ?_⟩
      simp [CellMachine.step, inCells, waiting, pure, Except.pure]
  | none =>
      have running : (machine.inCells slots).awaiting = none := by simp [inCells, waiting]
      have held : Stacked slots (machine.ready now period).stack := by
        rw [ready_eq]
        exact stacked
      have fetched : (machine.keepTime now period).memory.ram.word
          ((machine.keepTime now period).inCells slots).counter = machine.fetch := by
        rw [keepTime_eq]
        rfl
      rw [step_of_running waiting, CellMachine.step, running]
      dsimp only
      rw [keepTime_inCells, ok_bind, word_inCells, ok_bind, fetched]
      cases Instruction.decode machine.fetch with
      | error fault => exact ⟨slots, held, rfl⟩
      | ok instruction =>
          obtain ⟨left, after, executed⟩ :=
            execute_inCells (machine.ready now period) slots held instruction
          dsimp only
          rw [show ({ (machine.keepTime now period).inCells slots with
            counter := ((machine.keepTime now period).inCells slots).counter + 2 } : CellMachine) =
            (machine.ready now period).inCells slots from rfl, executed, ok_bind]
          cases met : (machine.ready now period).obstacle? instruction with
          | some fault =>
              simp only [afterInstruction, met] at after ⊢
              exact ⟨left, after, rfl⟩
          | none =>
              simp only [afterInstruction, met] at after ⊢
              exact ⟨left, after, rfl⟩

theorem resume_inCells (machine : Machine) (slots : Array UInt16) (key : UInt8) :
    (machine.inCells slots).resume key = .ok ((machine.resume key).inCells slots) := by
  cases waiting : machine.awaiting with
  | none =>
      rw [resume_of_running waiting]
      simp [CellMachine.resume, inCells, waiting, pure, Except.pure]
  | some register =>
      have expected : (machine.inCells slots).awaiting = some register.val := by
        simp [inCells, waiting]
      rw [CellMachine.resume, expected]
      dsimp only
      rw [setRegister_inCells, ok_bind, resume_of_awaiting waiting]
      rfl

theorem press_inCells (machine : Machine) (slots : Array UInt16) (key : UInt8) :
    (machine.inCells slots).press key =
      .ok ((machine.press key).1, (machine.press key).2.inCells slots) := by
  by_cases large : key > 0xf
  · rw [press_of_large large, CellMachine.press, if_pos large]
    rfl
  · have small : key ≤ 0xf := UInt8.not_lt.mp large
    have noted := resume_inCells { machine with keypad := machine.keypad.press key } slots key
    rw [press_of_small small, CellMachine.press, if_neg large, bit_eq key small, ok_bind]
    simp only [Keypad.press, if_pos small] at noted ⊢
    exact bind_of_eq noted

theorem release_inCells (machine : Machine) (slots : Array UInt16) (key : UInt8) :
    (machine.inCells slots).release key =
      .ok ((machine.release key).1, (machine.release key).2.inCells slots) := by
  by_cases large : key > 0xf
  · rw [release_of_large large, CellMachine.release, if_pos large]
    rfl
  · have small : key ≤ 0xf := UInt8.not_lt.mp large
    rw [release_of_small small, CellMachine.release, if_neg large, bit_eq key small, ok_bind]
    simp [inCells, Keypad.release, small, Keypad.bit, pure, Except.pure]

/-! ## Loading -/

theorem load_inCells (machine : Machine) (slots : Array UInt16)
    (placed : machine.memory.origin = programStart) (stacked : Stacked slots machine.stack)
    (program : List UInt8) :
    ∃ left, Stacked left (machine.load program).2.stack ∧
      (machine.inCells slots).load program =
        .ok ((machine.load program).1, (machine.load program).2.inCells left) := by
  by_cases large : program.length > programLimit
  · rw [load_of_large large, CellMachine.load, if_pos large]
    exact ⟨slots, stacked, rfl⟩
  · have small : program.length ≤ programLimit := Nat.le_of_not_lt large
    have laid : overwrite (Array.replicate (machine.inCells slots).bytes.size 0)
        Font.address.toNat Font.glyphs =
        .ok ((Memory.zeroed ramSize).place Font.address.toNat Font.glyphs).cells.toArray := by
      have cleared : Array.replicate (machine.inCells slots).bytes.size 0 =
          (Memory.zeroed ramSize).cells.toArray := by
        simp [inCells, Memory.zeroed]
      rw [cleared]
      exact overwrite_toArray (Memory.zeroed ramSize) _ _ (by decide)
    have filled : overwrite
        ((Memory.zeroed ramSize).place Font.address.toNat Font.glyphs).cells.toArray
        (machine.inCells slots).origin.toNat program =
        .ok (ProgramMemory.layout programStart program).cells.toArray := by
      rw [show (machine.inCells slots).origin = programStart from placed]
      exact overwrite_toArray _ _ _ (holds_of_length_le small)
    rw [load_of_small placed small]
    refine ⟨Array.replicate callDepthLimit 0, .nil (by simp), ?_⟩
    rw [CellMachine.load, if_neg large]
    dsimp only
    rw [laid, ok_bind, filled, ok_bind]
    simp [loaded, restart, placed, inCells, Screen.blank, SoundTimer.silent, Keypad.idle,
      pure, Except.pure]

theorem loadFrom_inCells (machine : Machine) (slots : Array UInt16)
    (placed : machine.memory.origin = programStart) (stacked : Stacked slots machine.stack)
    (stream : ByteStream) :
    ∃ left, Stacked left (machine.loadFrom stream).2.stack ∧
      (machine.inCells slots).loadFrom stream =
        .ok ((machine.loadFrom stream).1, (machine.loadFrom stream).2.inCells left) := by
  rw [CellMachine.loadFrom, loadFrom, ProgramMemory.loadFrom]
  cases stream.readUpTo (programLimit + 1) with
  | ok program => exact load_inCells machine slots placed stacked program
  | error cause => exact ⟨slots, stacked, rfl⟩

/-! ## Operations -/

theorem lowerSound_inCells (machine : Machine) (slots : Array UInt16) :
    (machine.inCells slots).lowerSound =
      .ok ({ machine with sound := machine.sound.decrement }.inCells slots) := by
  have same : (machine.inCells slots).sound = machine.sound.value := rfl
  by_cases silent : machine.sound.value = 0
  · rw [CellMachine.lowerSound, same, if_pos silent, SoundTimer.decrement, if_pos silent]
    rfl
  · have lowered : less machine.sound.value.toNat 1 = .ok (machine.sound.value - 1).toNat := by
      rw [toNat_sub_one silent]
      exact less_eq _ _ (UInt8.lt_iff_toNat_lt.mp (UInt8.pos_iff_ne_zero.mpr silent))
    rw [CellMachine.lowerSound, same, if_neg silent, lowered, ok_bind, UInt8.ofNat_toNat,
      SoundTimer.decrement, if_neg silent]
    rfl

theorem perform_inCells (machine : Machine) (slots : Array UInt16)
    (placed : machine.memory.origin = programStart) (stacked : Stacked slots machine.stack)
    (operation : Operation) :
    ∃ left, Stacked left (machine.perform operation).2.stack ∧
      (machine.inCells slots).perform operation =
        .ok ((machine.perform operation).1, (machine.perform operation).2.inCells left) := by
  cases operation with
  | step now period =>
      obtain ⟨left, held, stepped⟩ := step_inCells machine slots stacked now period
      exact ⟨left, held, bind_of_eq stepped⟩
  | press key =>
      refine ⟨slots, ?_, bind_of_eq (press_inCells machine slots key)⟩
      simp only [perform, press]
      split
      · exact stacked
      · simp only [resume]
        split <;> exact stacked
  | release key =>
      refine ⟨slots, ?_, bind_of_eq (release_inCells machine slots key)⟩
      simp only [perform, release]
      split <;> exact stacked
  | load program =>
      obtain ⟨left, held, loaded⟩ := load_inCells machine slots placed stacked program
      exact ⟨left, held, bind_of_eq loaded⟩
  | loadFrom stream =>
      obtain ⟨left, held, loaded⟩ := loadFrom_inCells machine slots placed stacked stream
      exact ⟨left, held, bind_of_eq loaded⟩
  | readSound | writeSound value => exact ⟨slots, stacked, rfl⟩
  | lowerSound => exact ⟨slots, stacked, bind_of_eq (lowerSound_inCells machine slots)⟩

theorem reply_ne_outside (machine : Machine) (placed : machine.memory.origin = programStart)
    (operation : Operation) :
    (machine.perform operation).1 ≠ .refused .programOutsideMemory := by
  by_cases loads : operation.loads = true
  · rcases perform_of_loads placed loads with ⟨program, loaded⟩ | ⟨fault, other, refused⟩
    · simp [loaded]
    · simpa [refused] using other
  · cases operation with
    | step now period =>
        rcases machine.step_cases now period with
          ⟨_, stepped⟩ | ⟨_, fault, named, stepped⟩ | ⟨_, instruction, _, _, stepped⟩
        · simp [perform, stepped, Reply.ofStep]
        · cases named <;> simp [perform, stepped, Reply.ofStep]
        · simp [perform, stepped, Reply.ofStep]
    | press key =>
        rw [perform, press]
        split <;> simp [Reply.ofOutcome]
    | release key =>
        rw [perform, release]
        split <;> simp [Reply.ofOutcome]
    | load program | loadFrom stream => exact absurd rfl loads
    | readSound | writeSound value | lowerSound => simp [perform]

theorem performAll_inCells (machine : Machine) (slots : Array UInt16)
    (placed : machine.memory.origin = programStart) (stacked : Stacked slots machine.stack)
    (operations : List Operation) :
    ∃ left, Stacked left (machine.performAll operations).2.stack ∧
      (machine.performAll operations).2.memory.origin = programStart ∧
      .refused .programOutsideMemory ∉ (machine.performAll operations).1 ∧
      (machine.inCells slots).performAll operations =
        .ok ((machine.performAll operations).1,
          (machine.performAll operations).2.inCells left) := by
  induction operations generalizing machine slots with
  | nil => exact ⟨slots, stacked, placed, by simp [performAll], rfl⟩
  | cons operation later ih =>
      obtain ⟨between, held, performed⟩ := perform_inCells machine slots placed stacked operation
      obtain ⟨left, ended, last, answered, rest⟩ := ih (machine.perform operation).2 between
        (origin_perform placed operation) held
      refine ⟨left, ended, last, ?_, ?_⟩
      · simp only [performAll, List.mem_cons, not_or]
        exact ⟨(reply_ne_outside machine placed operation).symm, answered⟩
      · rw [CellMachine.performAll, performed, ok_bind]
        dsimp only
        rw [rest]
        rfl

theorem new_inCells (random : RandomBytes) :
    CellMachine.new random =
      .ok ((Machine.new random).inCells (Array.replicate callDepthLimit 0)) := by
  have cleared : Array.replicate ramSize 0 = (Memory.zeroed ramSize).cells.toArray := by
    simp [Memory.zeroed]
  rw [CellMachine.new, cleared, overwrite_toArray _ _ _ (by decide), ok_bind]
  simp [new, inCells, ProgramMemory.blank, ProgramMemory.layout, Memory.place, Screen.blank,
    SoundTimer.silent, Keypad.idle, pure, Except.pure]

end Machine

namespace CellMachine

open Machine

/-- From a new machine on no operation traps, whatever programs are loaded and whatever the
operations before it have failed at. The replies are those of the machine itself, none of
them a program that ends outside of memory, and the cells left hold that machine. In them
the counter and I could even hold any other number: still no operation would trap, and
neither would any instruction. -/
theorem run_untrapped (random : RandomBytes) (operations : List Operation) :
    ∃ last : CellMachine,
      run random operations = .ok (((Machine.new random).performAll operations).1, last) ∧
      (∃ slots, Stacked slots ((Machine.new random).performAll operations).2.stack ∧
        last = ((Machine.new random).performAll operations).2.inCells slots) ∧
      .refused .programOutsideMemory ∉ ((Machine.new random).performAll operations).1 ∧
      last.bytes.size = 4096 ∧ last.origin = 0x200 ∧
      last.registers.size = 16 ∧ last.pixels.size = 2048 ∧
      last.slots.size = 16 ∧ last.depth ≤ 16 ∧
      (∀ register, last.awaiting = some register → register ≤ 15) ∧
      (∀ (counter index : UInt16) (operation : Operation),
        ∃ result, { last with counter, index }.perform operation = .ok result) ∧
      (∀ (counter index : UInt16) (instruction : Instruction),
        ∃ result, { last with counter, index }.execute instruction = .ok result) := by
  obtain ⟨slots, stacked, placed, answered, performed⟩ :=
    performAll_inCells (Machine.new random) (Array.replicate callDepthLimit 0) rfl
      (.nil (by simp)) operations
  generalize (Machine.new random).performAll operations = outcome at *
  obtain ⟨replies, machine⟩ := outcome
  refine ⟨machine.inCells slots, ?_, ⟨slots, stacked, rfl⟩, answered, by simp [inCells],
    placed, by simp [inCells], by simp [inCells], stacked.size, stacked.depth_le, ?_, ?_, ?_⟩
  · rw [run, new_inCells, Cells.ok_bind, performed]
  · intro register waiting
    obtain ⟨x, _, rfl⟩ := Option.map_eq_some_iff.mp waiting
    exact Nat.le_of_lt_succ x.isLt
  · intro counter index operation
    obtain ⟨left, _, outcome⟩ :=
      perform_inCells { machine with counter, index } slots placed stacked operation
    exact ⟨_, outcome⟩
  · intro counter index instruction
    obtain ⟨left, _, outcome⟩ :=
      execute_inCells { machine with counter, index } slots stacked instruction
    exact ⟨_, outcome⟩

end CellMachine

end ChipEight
