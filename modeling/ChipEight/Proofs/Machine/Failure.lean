import ChipEight.Proofs.Delay.Bookkeeping
import ChipEight.Proofs.Machine.CallStack

/-!
# Operations that fail

When an operation fails, and what it leaves. A step that fails on its instruction has kept
the time and moved the program counter on; every other failure leaves the machine as it
was.
-/

set_option autoImplicit false

namespace ChipEight.Machine

/-! ## The word of a step -/

/-- The byte that a sixteen-bit address names, modulo the size of memory. -/
def byteAt (machine : Machine) (address : Nat) : UInt8 :=
  machine.memory.ram.cells.get ⟨address % ramSize, Nat.mod_lt address (by decide)⟩

/-- The two bytes at the program counter, the first as the high one. -/
def wordAtCounter (machine : Machine) : UInt16 :=
  UInt16.ofNat (256 * (machine.byteAt machine.counter.toNat).toNat +
    (machine.byteAt ((machine.counter.toNat + 1) % 65536)).toNat)

theorem read_eq_byteAt (machine : Machine) (address : UInt16) :
    machine.memory.ram.read address = machine.byteAt address.toNat :=
  Memory.read_eq machine.memory.ram (by decide) address

theorem fetch_eq_wordAtCounter (machine : Machine) :
    machine.fetch = machine.wordAtCounter := by
  have next : (machine.counter + 1).toNat = (machine.counter.toNat + 1) % 65536 :=
    UInt16.toNat_add machine.counter 1
  rw [fetch, Memory.word, read_eq_byteAt, read_eq_byteAt, next, wordAtCounter]
  generalize machine.byteAt machine.counter.toNat = high
  generalize machine.byteAt ((machine.counter.toNat + 1) % 65536) = low
  apply UInt16.toNat_inj.mp
  have highBound := high.toNat_lt
  have lowBound := low.toNat_lt
  simp only [UInt16.toNat_add, UInt16.toNat_mul, UInt8.toNat_toUInt16, UInt16.toNat_ofNat',
    UInt16.reduceToNat]
  omega

/-! ## Steps -/

/-- What keeps a machine from making a step, and the fault that tells of it. -/
inductive Obstructed (machine : Machine) : Fault → Prop where
  | awaitingKey (waiting : machine.awaiting ≠ none) : Obstructed machine .awaitingKey
  | unsupportedWord (running : machine.awaiting = none)
      (unknown : Instruction.decode? machine.wordAtCounter = none) :
      Obstructed machine (.unsupportedWord machine.wordAtCounter)
  | callStackFull {target : Address} (running : machine.awaiting = none)
      (decoded : Instruction.decode? machine.wordAtCounter = some (.call target))
      (full : machine.stack.length = 16) : Obstructed machine .callStackFull
  | callStackEmpty (running : machine.awaiting = none)
      (decoded : Instruction.decode? machine.wordAtCounter = some .ret)
      (empty : machine.stack = []) : Obstructed machine .callStackEmpty

/-- What a step leaves that fails on its instruction. -/
def passedOver (machine : Machine) (now period : UInt64) : Machine :=
  { machine with
    counter := machine.counter + 2
    delay := if machine.DelayDue now period then machine.delay - 1 else machine.delay
    delaySince := if machine.DelayDue now period then now else machine.delaySince
    now }

theorem ready_eq_passedOver (machine : Machine) (now period : UInt64) :
    machine.ready now period = machine.passedOver now period := by
  by_cases due : machine.DelayDue now period
  · rw [ready, keepTime_of_due due, passedOver, if_pos due, if_pos due]
    rfl
  · rw [ready, keepTime_of_not_due due, passedOver, if_neg due, if_neg due]
    rfl

theorem obstructed_of_step {machine : Machine} {now period : UInt64} {fault : Fault}
    (limited : machine.stack.length ≤ callDepthLimit)
    (failed : (machine.step now period).1 = .error fault) : machine.Obstructed fault := by
  cases waiting : machine.awaiting with
  | some x =>
      rw [step_of_awaiting waiting] at failed
      cases failed
      exact .awaitingKey (by simp [waiting])
  | none =>
      rw [step_of_running waiting, fetch_eq_wordAtCounter, ready_eq] at failed
      cases decoded : Instruction.decode? machine.wordAtCounter with
      | none =>
          rw [Instruction.decode_eq_error decoded] at failed
          cases failed
          exact .unsupportedWord waiting decoded
      | some instruction =>
          rw [Instruction.decode_eq_ok_iff.mpr decoded] at failed
          cases instruction with
          | call target =>
              by_cases room : machine.stack.length < callDepthLimit
              · simp only [obstacle?, if_pos room] at failed
                cases failed
              · simp only [obstacle?, if_neg room] at failed
                cases failed
                exact .callStackFull waiting decoded
                  (Nat.le_antisymm limited (Nat.le_of_not_lt room))
          | ret =>
              cases entries : machine.stack with
              | nil =>
                  simp only [obstacle?, entries, List.isEmpty_nil, if_true] at failed
                  cases failed
                  exact .callStackEmpty waiting decoded entries
              | cons back older => simp [obstacle?, entries] at failed
          | _ => simp [obstacle?] at failed

theorem step_of_obstructed {machine : Machine} {fault : Fault}
    (obstructed : machine.Obstructed fault) (now period : UInt64) :
    (machine.step now period).1 = .error fault := by
  cases obstructed with
  | awaitingKey waiting =>
      obtain ⟨x, waiting⟩ := Option.ne_none_iff_exists'.mp waiting
      rw [step_of_awaiting waiting]
  | unsupportedWord running unknown =>
      rw [step_of_running running, fetch_eq_wordAtCounter, Instruction.decode_eq_error unknown]
  | callStackFull running decoded full =>
      rw [step_of_running running, fetch_eq_wordAtCounter, Instruction.decode_eq_ok_iff.mpr decoded,
        ready_eq]
      simp [obstacle?, full, callDepthLimit]
  | callStackEmpty running decoded empty =>
      rw [step_of_running running, fetch_eq_wordAtCounter, Instruction.decode_eq_ok_iff.mpr decoded,
        ready_eq]
      simp [obstacle?, empty]

/-- Whatever a step comes to, the time is kept and the counter moved on before anything
else happens, unless a key press is awaited. -/
theorem step_leaves {machine : Machine} {now period : UInt64} :
    (∀ fault, (machine.step now period).1 = .error fault →
      (machine.step now period).2 =
        if fault = .awaitingKey then machine else machine.passedOver now period) ∧
    (∀ instruction, (machine.step now period).1 = .ok instruction →
      (machine.step now period).2 = (machine.passedOver now period).execute instruction) := by
  rcases machine.step_cases now period with
    ⟨-, refused⟩ | ⟨-, fault, named, failed⟩ | ⟨-, instruction, -, -, executed⟩
  · rw [refused]
    constructor
    · intro fault same
      cases same
      rfl
    · intro instruction same
      cases same
  · rw [failed, ready_eq_passedOver]
    constructor
    · intro other same
      cases same
      cases named <;> rfl
    · intro instruction same
      cases same
  · rw [executed, ready_eq_passedOver]
    constructor
    · intro fault same
      cases same
    · intro other same
      cases same
      rfl

theorem step_eq_error_iff {machine : Machine} (limited : machine.stack.length ≤ callDepthLimit)
    {now period : UInt64} {fault : Fault} {after : Machine} :
    machine.step now period = (.error fault, after) ↔
      machine.Obstructed fault ∧
        after = if fault = .awaitingKey then machine else machine.passedOver now period := by
  constructor
  · intro stepped
    have failed : (machine.step now period).1 = .error fault := congrArg Prod.fst stepped
    have left : (machine.step now period).2 = after := congrArg Prod.snd stepped
    exact ⟨obstructed_of_step limited failed, left ▸ step_leaves.1 fault failed⟩
  · rintro ⟨obstructed, rfl⟩
    have failed := step_of_obstructed obstructed now period
    exact Prod.ext failed (step_leaves.1 fault failed)

/-! ## Keys and loading -/

theorem press_eq_error_iff {machine after : Machine} {key : UInt8} {fault : Fault} :
    machine.press key = (.error fault, after) ↔
      15 < key.toNat ∧ fault = .keyOutOfRange key ∧ after = machine := by
  constructor
  · intro pressed
    by_cases large : 0xf < key
    · rw [press_of_large large] at pressed
      cases pressed
      exact ⟨UInt8.lt_iff_toNat_lt.mp large, rfl, rfl⟩
    · rw [press_of_small (UInt8.not_lt.mp large)] at pressed
      cases pressed
  · rintro ⟨large, rfl, rfl⟩
    exact press_of_large (UInt8.lt_iff_toNat_lt.mpr large) after

theorem release_eq_error_iff {machine after : Machine} {key : UInt8} {fault : Fault} :
    machine.release key = (.error fault, after) ↔
      15 < key.toNat ∧ fault = .keyOutOfRange key ∧ after = machine := by
  constructor
  · intro released
    by_cases large : 0xf < key
    · rw [release_of_large large] at released
      cases released
      exact ⟨UInt8.lt_iff_toNat_lt.mp large, rfl, rfl⟩
    · rw [release_of_small (UInt8.not_lt.mp large)] at released
      cases released
  · rintro ⟨large, rfl, rfl⟩
    exact release_of_large (UInt8.lt_iff_toNat_lt.mpr large) after

theorem load_eq_error_iff {machine after : Machine}
    (placed : machine.memory.origin = programStart) {program : List UInt8} {fault : Fault} :
    machine.load program = (.error fault, after) ↔
      3504 < program.length ∧ fault = .programTooLarge program.length 3504 ∧
        after = machine := by
  constructor
  · intro loaded
    by_cases large : programLimit < program.length
    · rw [load_of_large large] at loaded
      cases loaded
      exact ⟨large, rfl, rfl⟩
    · rw [load_of_small placed (Nat.le_of_not_lt large)] at loaded
      cases loaded
  · rintro ⟨large, rfl, rfl⟩
    exact load_of_large large

theorem loadFrom_error {machine after : Machine}
    (placed : machine.memory.origin = programStart) {stream : ByteStream} {fault : Fault}
    (failed : machine.loadFrom stream = (.error fault, after)) : after = machine := by
  rcases machine.loadFrom_cases stream with ⟨program, same⟩ | ⟨cause, unread⟩
  · rw [same] at failed
    exact ((load_eq_error_iff placed).mp failed).2.2
  · rw [unread] at failed
    cases failed
    rfl

/-- When the operations on a machine fail, and what a failure leaves. -/
structure FailsCleanly (machine : Machine) : Prop where
  step : ∀ now period fault after, machine.step now period = (.error fault, after) ↔
    machine.Obstructed fault ∧
      after = if fault = .awaitingKey then machine else machine.passedOver now period
  stepFails : ∀ now period,
    (∃ fault after, machine.step now period = (.error fault, after)) ↔
      machine.awaiting ≠ none ∨ Instruction.decode? machine.wordAtCounter = none ∨
      (∃ target, Instruction.decode? machine.wordAtCounter = some (.call target) ∧
        machine.stack.length = 16) ∨
      (Instruction.decode? machine.wordAtCounter = some .ret ∧ machine.stack = [])
  /-- A step that succeeds has kept the time in the same way. -/
  stepSucceeds : ∀ now period instruction after,
    machine.step now period = (.ok instruction, after) →
      after = (machine.passedOver now period).execute instruction
  press : ∀ key fault after, machine.press key = (.error fault, after) ↔
    15 < key.toNat ∧ fault = .keyOutOfRange key ∧ after = machine
  release : ∀ key fault after, machine.release key = (.error fault, after) ↔
    15 < key.toNat ∧ fault = .keyOutOfRange key ∧ after = machine
  load : ∀ program fault after, machine.load program = (.error fault, after) ↔
    3504 < program.length ∧ fault = .programTooLarge program.length 3504 ∧ after = machine
  loadFrom : ∀ stream fault after,
    machine.loadFrom stream = (.error fault, after) → after = machine

theorem exists_obstructed_iff (machine : Machine) :
    (∃ fault, machine.Obstructed fault) ↔
      machine.awaiting ≠ none ∨ Instruction.decode? machine.wordAtCounter = none ∨
      (∃ target, Instruction.decode? machine.wordAtCounter = some (.call target) ∧
        machine.stack.length = 16) ∨
      (Instruction.decode? machine.wordAtCounter = some .ret ∧ machine.stack = []) := by
  constructor
  · rintro ⟨fault, obstructed⟩
    cases obstructed with
    | awaitingKey waiting => exact .inl waiting
    | unsupportedWord running unknown => exact .inr (.inl unknown)
    | callStackFull running decoded full => exact .inr (.inr (.inl ⟨_, decoded, full⟩))
    | callStackEmpty running decoded empty => exact .inr (.inr (.inr ⟨decoded, empty⟩))
  · intro reason
    by_cases running : machine.awaiting = none
    · rcases reason with waiting | unknown | ⟨target, decoded, full⟩ | ⟨decoded, empty⟩
      · exact absurd running waiting
      · exact ⟨_, .unsupportedWord running unknown⟩
      · exact ⟨_, .callStackFull running decoded full⟩
      · exact ⟨_, .callStackEmpty running decoded empty⟩
    · exact ⟨_, .awaitingKey running⟩

/-- A failing operation changes nothing but what a step has done before it looks at its
instruction. -/
theorem failsCleanly_of_reachable {machine : Machine} (reached : Reachable machine) :
    machine.FailsCleanly where
  step _ _ _ _ := step_eq_error_iff reached.stack_le
  stepFails now period := by
    rw [← exists_obstructed_iff]
    constructor
    · rintro ⟨fault, after, failed⟩
      exact ⟨fault, ((step_eq_error_iff reached.stack_le).mp failed).1⟩
    · rintro ⟨fault, obstructed⟩
      exact ⟨fault, _, (step_eq_error_iff reached.stack_le).mpr ⟨obstructed, rfl⟩⟩
  stepSucceeds now period instruction after stepped := by
    have succeeded : (machine.step now period).1 = .ok instruction := congrArg Prod.fst stepped
    have left : (machine.step now period).2 = after := congrArg Prod.snd stepped
    exact left ▸ step_leaves.2 instruction succeeded
  press _ _ _ := press_eq_error_iff
  release _ _ _ := release_eq_error_iff
  load _ _ _ := load_eq_error_iff reached.origin
  loadFrom _ _ _ := loadFrom_error reached.origin

/-- A subroutine that calls itself fills the stack while the delay timer runs; the next
call fails late enough for the timer to count. -/
theorem failsCleanly_callStackFull :
    let full := ((new (.counter 0 1)).performAll
      (.load [0x60, 0x05, 0xf0, 0x15, 0x22, 0x04] :: List.replicate 18 (.step 0 1))).2
    Reachable full ∧ full.FailsCleanly ∧ full.stack.length = 16 ∧
      full.step 9 1 = (.error .callStackFull,
        { full with counter := 0x206, delay := 4, delaySince := 9, now := 9 }) := by
  intro full
  have reached : Reachable full := (Reachable.new (.counter 0 1)).performAll _
  have clean := failsCleanly_of_reachable reached
  obtain ⟨running, decoded, deep, counter, delay, due⟩ :
      full.awaiting = none ∧
      Instruction.decode? full.wordAtCounter = some (.call 0x204) ∧
      full.stack.length = 16 ∧ full.counter = 0x204 ∧ full.delay = 5 ∧
      full.DelayDue 9 1 := by decide +kernel
  refine ⟨reached, clean, deep, (clean.step 9 1 _ _).mpr ⟨.callStackFull running decoded deep, ?_⟩⟩
  rw [if_neg (by simp), passedOver, if_pos due, if_pos due, counter, delay]
  rfl

end ChipEight.Machine
