import ChipEight.Machine.Operation
import ChipEight.Proofs.Instruction.Words

/-!
# Frames of instructions and steps

What an instruction leaves alone, as equations between whole machines, and the three
ways in which a step can go. Later facts about steps cite these and open neither
`execute` nor `step`.
-/

set_option autoImplicit false

namespace ChipEight

/-- The faults that a step on an instruction can meet. -/
inductive Fault.OfInstruction : Fault → Prop where
  | unsupported (word : UInt16) : OfInstruction (.unsupportedWord word)
  | full : OfInstruction .callStackFull
  | empty : OfInstruction .callStackEmpty

/-- The delay timer with its last tick, out of the rest of the machine. -/
structure DelayTimer where
  value : UInt8
  since : UInt64
deriving DecidableEq

/-- The register that an instruction has the next key press go to. -/
def Instruction.awaited? : Instruction → Option Register
  | .awaitKey x => some x
  | _ => none

namespace Machine

/-! ## Frames of the parts of an instruction -/

theorem compute_eq (machine : Machine) (operation : Arithmetic) (x y : Register) :
    machine.compute operation x y =
      { machine with registers := (machine.compute operation x y).registers } := by
  unfold compute
  dsimp only
  split
  · rfl
  · split <;> rfl

theorem storeRegisters_eq (machine : Machine) (x : Register) :
    machine.storeRegisters x =
      { machine with
        memory := { machine.memory with ram := (machine.storeRegisters x).memory.ram } } := by
  unfold storeRegisters
  induction registersUpTo x generalizing machine with
  | nil => rfl
  | cons register later ih =>
      rw [List.foldl_cons, ih]
      rfl

theorem loadRegisters_eq (machine : Machine) (x : Register) :
    machine.loadRegisters x =
      { machine with registers := (machine.loadRegisters x).registers } := by
  unfold loadRegisters
  induction registersUpTo x generalizing machine with
  | nil => rfl
  | cons register later ih =>
      rw [List.foldl_cons, ih]
      rfl

/-! ## The frame of an instruction -/

def delayTimer (machine : Machine) : DelayTimer := ⟨machine.delay, machine.delaySince⟩

/-- The call stack once an instruction is executed. A call leaves the address behind
itself, which the program counter already holds. -/
def stackAfter (machine : Machine) : Instruction → List UInt16
  | .ret => machine.stack.tail
  | .call _ => machine.counter :: machine.stack
  | _ => machine.stack

/-- What an instruction leaves alone, and what it makes of the call stack and of the wait
for a key. -/
structure Framed (before : Machine) (instruction : Instruction) (after : Machine) : Prop where
  origin : after.memory.origin = before.memory.origin
  stack : after.stack = before.stackAfter instruction
  awaiting : after.awaiting = instruction.awaited?.or before.awaiting
  delayTimer : (∀ x, instruction ≠ .setDelay x) → after.delayTimer = before.delayTimer

theorem framed_execute (machine : Machine) (instruction : Instruction) :
    Framed machine instruction (machine.execute instruction) := by
  cases instruction with
  | ret =>
      cases entries : machine.stack with
      | nil =>
          simp only [execute, entries]
          exact ⟨rfl, by rw [stackAfter, entries, List.tail_nil], rfl, fun _ => rfl⟩
      | cons back older =>
          simp only [execute, entries]
          exact ⟨rfl, by rw [stackAfter, entries, List.tail_cons], rfl, fun _ => rfl⟩
  | skip condition =>
      simp only [execute]
      split
      · exact ⟨rfl, rfl, rfl, fun _ => rfl⟩
      · exact ⟨rfl, rfl, rfl, fun _ => rfl⟩
  | arithmetic operation x y =>
      rw [execute, compute_eq]
      exact ⟨rfl, rfl, rfl, fun _ => rfl⟩
  | setDelay x => exact ⟨rfl, rfl, rfl, fun other => absurd rfl (other x)⟩
  | storeRegisters x =>
      rw [execute, storeRegisters_eq]
      exact ⟨rfl, rfl, rfl, fun _ => rfl⟩
  | loadRegisters x =>
      rw [execute, loadRegisters_eq]
      exact ⟨rfl, rfl, rfl, fun _ => rfl⟩
  | _ => exact ⟨rfl, rfl, rfl, fun _ => rfl⟩

/-! ## Steps -/

/-- The machine of a step once the time is kept and the counter moved on. -/
def ready (machine : Machine) (now period : UInt64) : Machine :=
  (machine.keepTime now period).advance

theorem keepTime_eq (machine : Machine) (now period : UInt64) :
    machine.keepTime now period =
      { machine with
        delay := (machine.keepTime now period).delay
        delaySince := (machine.keepTime now period).delaySince
        now } := by
  unfold keepTime
  split <;> rfl

theorem ready_eq (machine : Machine) (now period : UInt64) :
    machine.ready now period =
      { machine with
        counter := machine.counter + 2
        delay := (machine.keepTime now period).delay
        delaySince := (machine.keepTime now period).delaySince
        now } := by
  rw [ready, keepTime_eq, advance]

theorem obstacle_ofInstruction {machine : Machine} {instruction : Instruction} {fault : Fault}
    (met : machine.obstacle? instruction = some fault) : Fault.OfInstruction fault := by
  cases instruction with
  | ret =>
      simp only [obstacle?] at met
      split at met
      · cases met; exact .empty
      · cases met
  | call target =>
      simp only [obstacle?] at met
      split at met
      · cases met
      · cases met; exact .full
  | _ => cases met

theorem step_of_awaiting {machine : Machine} {x : Register}
    (waiting : machine.awaiting = some x) (now period : UInt64) :
    machine.step now period = (.error .awaitingKey, machine) := by
  rw [step, waiting]

theorem step_of_running {machine : Machine} (running : machine.awaiting = none)
    (now period : UInt64) :
    machine.step now period =
      match Instruction.decode machine.fetch with
      | .error fault => (.error fault, machine.ready now period)
      | .ok instruction =>
        match (machine.ready now period).obstacle? instruction with
        | some fault => (.error fault, machine.ready now period)
        | none => (.ok instruction, (machine.ready now period).execute instruction) := by
  rw [step, running]
  rfl

/-- A step is refused whole, or fails on its instruction once it is ready, or executes it. -/
theorem step_cases (machine : Machine) (now period : UInt64) :
    (machine.awaiting ≠ none ∧ machine.step now period = (.error .awaitingKey, machine)) ∨
    (machine.awaiting = none ∧ ∃ fault, Fault.OfInstruction fault ∧
      machine.step now period = (.error fault, machine.ready now period)) ∨
    (machine.awaiting = none ∧ ∃ instruction,
      Instruction.decode machine.fetch = .ok instruction ∧
      (machine.ready now period).obstacle? instruction = none ∧
      machine.step now period =
        (.ok instruction, (machine.ready now period).execute instruction)) := by
  cases waiting : machine.awaiting with
  | some register => exact .inl ⟨by simp, step_of_awaiting waiting now period⟩
  | none =>
      rw [step_of_running waiting]
      cases decoded : Instruction.decode machine.fetch with
      | error fault =>
          have named := Instruction.decode_error decoded
          subst named
          exact .inr (.inl ⟨rfl, .unsupportedWord machine.fetch, .unsupported _, rfl⟩)
      | ok instruction =>
          dsimp only
          cases met : (machine.ready now period).obstacle? instruction with
          | some fault => exact .inr (.inl ⟨rfl, fault, obstacle_ofInstruction met, rfl⟩)
          | none => exact .inr (.inr ⟨rfl, instruction, rfl, met, rfl⟩)

theorem step_of_ok {machine : Machine} {now period : UInt64} {instruction : Instruction}
    (succeeded : (machine.step now period).1 = .ok instruction) :
    (machine.ready now period).obstacle? instruction = none ∧
      (machine.step now period).2 = (machine.ready now period).execute instruction := by
  rcases machine.step_cases now period with
    ⟨-, refused⟩ | ⟨-, fault, -, failed⟩ | ⟨-, found, -, free, executed⟩
  · rw [refused] at succeeded
    cases succeeded
  · rw [failed] at succeeded
    cases succeeded
  · rw [executed] at succeeded ⊢
    cases succeeded
    exact ⟨free, rfl⟩

/-! ## Keys -/

theorem resume_of_running {machine : Machine} (running : machine.awaiting = none)
    (key : UInt8) : machine.resume key = machine := by
  rw [resume, running]

theorem resume_of_awaiting {machine : Machine} {x : Register}
    (waiting : machine.awaiting = some x) (key : UInt8) :
    machine.resume key =
      { machine with
        registers := machine.registers.set x key x.isLt
        counter := machine.counter + 2
        awaiting := none } := by
  rw [resume, waiting]
  rfl

theorem press_eq (machine : Machine) (key : UInt8) :
    (machine.press key).2 =
      { machine with
        registers := (machine.press key).2.registers
        counter := (machine.press key).2.counter
        keypad := (machine.press key).2.keypad
        awaiting := (machine.press key).2.awaiting } := by
  unfold press resume
  split
  · rfl
  · dsimp only
    split <;> rfl

theorem release_eq (machine : Machine) (key : UInt8) :
    (machine.release key).2 =
      { machine with keypad := (machine.release key).2.keypad } := by
  unfold release
  split <;> rfl

theorem press_of_large {key : UInt8} (large : 0xf < key) (machine : Machine) :
    machine.press key = (.error (.keyOutOfRange key), machine) := if_pos large

theorem press_of_small {key : UInt8} (small : key ≤ 0xf) (machine : Machine) :
    machine.press key =
      (.ok (), { machine with keypad := machine.keypad.press key }.resume key) :=
  if_neg (UInt8.not_lt.mpr small)

theorem release_of_large {key : UInt8} (large : 0xf < key) (machine : Machine) :
    machine.release key = (.error (.keyOutOfRange key), machine) := if_pos large

theorem release_of_small {key : UInt8} (small : key ≤ 0xf) (machine : Machine) :
    machine.release key =
      (.ok (), { machine with keypad := machine.keypad.release key }) :=
  if_neg (UInt8.not_lt.mpr small)

end Machine

end ChipEight
