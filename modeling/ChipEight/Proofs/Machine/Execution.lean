import ChipEight.Proofs.Instruction.Words
import ChipEight.Proofs.Machine.Effects

/-!
# Executions of an instruction

An instruction is executed in a step that finds its word at the program counter, or outright.
What a step has done before makes no difference to what most instructions find, so what an
instruction does is said once for both.
-/

set_option autoImplicit false

namespace ChipEight.Machine

inductive Executed (instruction : Instruction) (before : Machine) : Machine → Prop where
  | outright : Executed instruction before (before.execute instruction)
  | inStep {now period : UInt64} (succeeded : (before.step now period).1 = .ok instruction) :
      Executed instruction before (before.step now period).2

/-- Whatever has been done to a machine before an instruction is executed is done to its clock,
its delay timer and its program counter. -/
theorem Executed.exists_ready {instruction : Instruction} {before after : Machine}
    (executed : Executed instruction before after) :
    ∃ counter delay delaySince now,
      after = { before with counter, delay, delaySince, now }.execute instruction := by
  cases executed with
  | outright => exact ⟨before.counter, before.delay, before.delaySince, before.now, rfl⟩
  | inStep succeeded => exact ⟨_, _, _, _, step_leaves.2 instruction succeeded⟩

theorem obstacle_of_not_movesStack {instruction : Instruction}
    (still : instruction.movesStack = false) (machine : Machine) :
    machine.obstacle? instruction = none := by
  cases instruction with
  | ret | call target => cases still
  | _ => rfl

/-- A step of a running machine that is on the word of an instruction executes it. -/
theorem step_of_word {machine : Machine} {instruction : Instruction}
    (still : instruction.movesStack = false) (running : machine.awaiting = none)
    (word : machine.wordAtCounter = instruction.encode) (now period : UInt64) :
    (machine.step now period).1 = .ok instruction := by
  have decoded : Instruction.decode machine.fetch = .ok instruction := by
    rw [fetch_eq_wordAtCounter, word]
    exact Instruction.decode_eq_ok_iff.mpr (Instruction.decode?_encode instruction)
  rw [step_of_running running, decoded]
  dsimp only
  rw [obstacle_of_not_movesStack still]

/-- Every execution of the instruction has the effect, and a running machine that is on its
word executes it. -/
structure Does (instruction : Instruction) (effect : Machine → Machine → Prop) : Prop where
  effect : ∀ before after, Executed instruction before after → effect before after
  obeyed : ∀ (machine : Machine) (now period : UInt64), machine.awaiting = none →
    machine.wordAtCounter = instruction.encode → (machine.step now period).1 = .ok instruction

theorem does_of_ready {instruction : Instruction} {effect : Machine → Machine → Prop}
    (still : instruction.movesStack = false)
    (made : ∀ (before : Machine) counter delay delaySince now,
      effect before ({ before with counter, delay, delaySince, now }.execute instruction)) :
    Does instruction effect := by
  constructor
  · intro before after executed
    obtain ⟨counter, delay, delaySince, now, rfl⟩ := executed.exists_ready
    exact made before counter delay delaySince now
  · intro machine now period running word
    exact step_of_word still running word now period

end ChipEight.Machine
