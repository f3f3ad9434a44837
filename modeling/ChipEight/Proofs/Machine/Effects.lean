import ChipEight.Proofs.Machine.Failure

/-!
# What a step may change

Which parts of the machine each instruction may change, and where the program counter is
after it. Everything else is after a step what it was before, and the instruction is that
of the word which the program counter was on before the step, even if the step has
overwritten that word.
-/

set_option autoImplicit false

namespace ChipEight

def Arithmetic.setsFlag : Arithmetic → Bool
  | .copy | .or | .and | .xor => false
  | .add | .subtract | .shiftRight | .subtractFrom | .shiftLeft => true

namespace Instruction

/-- The registers that an instruction may change. -/
def Writes : Instruction → Register → Prop
  | .setByte x _, y | .addByte x _, y | .random x _, y | .readDelay x, y => y = x
  | .arithmetic operation x _, y => y = x ∨ (operation.setsFlag = true ∧ y = flagRegister)
  | .draw _ _ _, y => y = flagRegister
  | .loadRegisters x, y => y ≤ x
  | _, _ => False

/-- How many cells an instruction may change, the first of them at I. -/
def cellsWritten : Instruction → Nat
  | .storeDecimal _ => 3
  | .storeRegisters x => x.val + 1
  | _ => 0

def redraws : Instruction → Bool
  | .clearScreen | .draw _ _ _ => true
  | _ => false

def movesIndex : Instruction → Bool
  | .setIndex _ | .addIndex _ | .glyph _ => true
  | _ => false

def movesStack : Instruction → Bool
  | .ret | .call _ => true
  | _ => false

def drawsByte : Instruction → Bool
  | .random _ _ => true
  | _ => false

end Instruction

namespace Machine

/-! ## Registers and cells -/

theorem register_setRegister_self (machine : Machine) (x : Register) (value : UInt8) :
    (machine.setRegister x value).register x = value := by
  rw [register_setRegister, if_pos rfl]

theorem register_setRegister_of_ne {x y : Register} (other : y ≠ x) (machine : Machine)
    (value : UInt8) : (machine.setRegister x value).register y = machine.register y := by
  rw [register_setRegister, if_neg other.symm]

theorem register_compute {operation : Arithmetic} {x y : Register}
    (kept : ¬ (y = x ∨ (operation.setsFlag = true ∧ y = flagRegister))) (machine : Machine)
    (z : Register) : (machine.compute operation x z).register y = machine.register y := by
  obtain ⟨otherResult, otherFlag⟩ := not_or.mp kept
  cases operation with
  | copy | or | and | xor => exact register_setRegister_of_ne otherResult machine _
  | add | subtract | shiftRight | subtractFrom | shiftLeft =>
      have otherFlag : y ≠ flagRegister := fun same => otherFlag ⟨rfl, same⟩
      simp only [compute, Arithmetic.flag?, setFlag]
      split <;> rw [register_setRegister_of_ne (by assumption),
        register_setRegister_of_ne (by assumption)]

theorem mem_registersUpTo {x y : Register} : y ∈ registersUpTo x ↔ y ≤ x := by
  revert x y
  decide

theorem register_foldl_setRegister (value : Machine → Register → UInt8) {y : Register}
    {registers : List Register} (absent : y ∉ registers) (machine : Machine) :
    (registers.foldl (fun machine register => machine.setRegister register (value machine register))
      machine).register y = machine.register y := by
  induction registers generalizing machine with
  | nil => rfl
  | cons register later ih =>
      rw [List.mem_cons, not_or] at absent
      obtain ⟨other, absent⟩ := absent
      rw [List.foldl_cons, ih absent]
      exact register_setRegister_of_ne other machine _

theorem register_loadRegisters {x y : Register} (beyond : ¬ y ≤ x) (machine : Machine) :
    (machine.loadRegisters x).register y = machine.register y :=
  register_foldl_setRegister _ (fun among => beyond (mem_registersUpTo.mp among)) machine

theorem cellOf_add_ofNat (index : UInt16) (offset : Nat) :
    Memory.cellOf ramSize (index + UInt16.ofNat offset) = (index.toNat + offset) % 4096 := by
  simp only [Memory.cellOf, ramSize, UInt16.toNat_add, UInt16.toNat_ofNat']
  omega

theorem byteAt_writeAt {machine : Machine} {index : UInt16} (there : machine.index = index)
    {address : Nat} (offset : Nat) (other : address % 4096 ≠ (index.toNat + offset) % 4096)
    (value : UInt8) :
    (machine.writeAt offset value).byteAt address = machine.byteAt address := by
  rw [← there, ← cellOf_add_ofNat] at other
  exact Vector.getElem_setIfInBounds_ne _ other.symm

theorem byteAt_storeDecimal {machine : Machine} {address : Nat}
    (others : ∀ offset < 3, address % 4096 ≠ (machine.index.toNat + offset) % 4096)
    (value : UInt8) :
    (machine.storeDecimal value).byteAt address = machine.byteAt address := by
  have hundreds := @byteAt_writeAt machine machine.index rfl address 0 (others 0 (by decide))
  have tens := fun before => @byteAt_writeAt (machine.writeAt 0 before) machine.index rfl address 1
    (others 1 (by decide))
  have units := fun before between => @byteAt_writeAt
    ((machine.writeAt 0 before).writeAt 1 between) machine.index rfl address 2
    (others 2 (by decide))
  rw [storeDecimal, units, tens, hundreds]

/-- No write moves I, so the cells to stay clear of are the same all along. -/
theorem byteAt_foldl_writeAt {machine : Machine} {registers : List Register} {address : Nat}
    (others : ∀ register ∈ registers,
      address % 4096 ≠ (machine.index.toNat + register.val) % 4096) :
    (registers.foldl (fun machine register =>
      machine.writeAt register.val (machine.register register)) machine).byteAt address =
        machine.byteAt address := by
  induction registers generalizing machine with
  | nil => rfl
  | cons register later ih =>
      have rest := @ih (machine.writeAt register.val (machine.register register))
        fun other among => others other (List.mem_cons_of_mem _ among)
      exact rest.trans (byteAt_writeAt rfl register.val (others register List.mem_cons_self) _)

theorem byteAt_storeRegisters {machine : Machine} {x : Register} {address : Nat}
    (others : ∀ offset < x.val + 1,
      address % 4096 ≠ (machine.index.toNat + offset) % 4096) :
    (machine.storeRegisters x).byteAt address = machine.byteAt address := by
  refine byteAt_foldl_writeAt fun register among => others register ?_
  exact Nat.lt_succ_of_le (mem_registersUpTo.mp among)

/-! ## Instructions -/

/-- The parts of the machine that an instruction leaves alone, beside those of `Framed`. A
proof names the parts that the instruction does change. -/
structure Confined (before : Machine) (instruction : Instruction) (after : Machine) : Prop where
  cells : ∀ address, (∀ offset < instruction.cellsWritten,
    address % 4096 ≠ (before.index.toNat + offset) % 4096) →
      after.byteAt address = before.byteAt address := by exact fun _ _ => rfl
  programSize : after.memory.programSize = before.memory.programSize := by rfl
  screen : instruction.redraws = false → after.screen = before.screen := by exact fun _ => rfl
  index : instruction.movesIndex = false → after.index = before.index := by exact fun _ => rfl
  sound : (∀ x, instruction ≠ .setSound x) → after.sound = before.sound := by
    exact fun _ => rfl
  keypad : after.keypad = before.keypad := by rfl
  random : after.random =
    if instruction.drawsByte then before.random.advance else before.random := by rfl
  registers : ∀ y, ¬ instruction.Writes y → after.register y = before.register y := by
    exact fun _ _ => rfl

theorem confined_execute (machine : Machine) (instruction : Instruction) :
    Confined machine instruction (machine.execute instruction) := by
  cases instruction with
  | ret =>
      simp only [execute]
      split <;> exact {}
  | skip condition =>
      simp only [execute]
      split <;> exact {}
  | jump _ | call _ | jumpOffset _ | awaitKey _ | setDelay _ => exact {}
  | clearScreen => exact { screen := fun still => absurd still.symm Bool.false_ne_true }
  | setIndex _ | addIndex _ | glyph _ =>
      exact { index := fun still => absurd still.symm Bool.false_ne_true }
  | setSound x => exact { sound := fun other => absurd rfl (other x) }
  | setByte x _ | addByte x _ | random x _ | readDelay x =>
      exact { registers := fun _ other => register_setRegister_of_ne other _ _ }
  | arithmetic operation x y =>
      rw [execute, compute_eq]
      exact { registers := fun _ kept => register_compute kept machine y }
  | draw x y rows =>
      exact { screen := fun still => absurd still.symm Bool.false_ne_true
              registers := fun _ other => register_setRegister_of_ne other _ _ }
  | loadRegisters x =>
      rw [execute, loadRegisters_eq]
      exact { registers := fun _ beyond => register_loadRegisters beyond machine }
  | storeRegisters x =>
      rw [execute, storeRegisters_eq]
      exact { cells := fun _ others => byteAt_storeRegisters others }
  | storeDecimal x => exact { cells := fun _ others => byteAt_storeDecimal others _ }

/-- Where the program counter is after an instruction; `none` for a return without a call. -/
def counterAfter (machine : Machine) : Instruction → Option UInt16
  | .ret => machine.stack.head?
  | .jump target | .call target => some (UInt16.ofNat target.val)
  | .skip condition =>
    some (if machine.holds condition then machine.counter + 4 else machine.counter + 2)
  | .jumpOffset target =>
    some (UInt16.ofNat target.val + (machine.register offsetRegister).toUInt16)
  | .awaitKey _ => some machine.counter
  | _ => some (machine.counter + 2)

theorem holds_ready (machine : Machine) (now period : UInt64) (condition : Condition) :
    (machine.ready now period).holds condition = machine.holds condition := by
  rw [ready_eq]
  cases condition <;> rfl

theorem counter_execute {machine : Machine} {now period : UInt64} {instruction : Instruction}
    (free : (machine.ready now period).obstacle? instruction = none) :
    machine.counterAfter instruction =
      some ((machine.ready now period).execute instruction).counter := by
  have moved : (machine.ready now period).counter = machine.counter + 2 := by rw [ready_eq]
  cases instruction with
  | ret =>
      have entries : (machine.ready now period).stack = machine.stack := by rw [ready_eq]
      cases onStack : machine.stack with
      | nil => simp [obstacle?, entries, onStack] at free
      | cons back older => simp only [counterAfter, execute, entries, onStack, List.head?_cons]
  | jump target | call target => rfl
  | jumpOffset target =>
      have same : (machine.ready now period).register offsetRegister =
          machine.register offsetRegister := by rw [ready_eq]; rfl
      rw [counterAfter, execute, same]
  | skip condition =>
      have further : machine.counter + 2 + 2 = machine.counter + 4 := UInt16.add_assoc _ _ _
      rw [counterAfter, execute, holds_ready]
      split
      case isTrue taken => rw [← further, ← moved]
      case isFalse notTaken => rw [moved]
  | awaitKey x =>
      have back : machine.counter + 2 - 2 = machine.counter := UInt16.add_sub_cancel _ _
      rw [counterAfter, execute, moved, back]
  | arithmetic operation x y =>
      rw [execute, compute_eq]
      exact congrArg some moved.symm
  | storeRegisters x =>
      rw [execute, storeRegisters_eq]
      exact congrArg some moved.symm
  | loadRegisters x =>
      rw [execute, loadRegisters_eq]
      exact congrArg some moved.symm
  | _ => exact congrArg some moved.symm

/-! ## Steps -/

/-- What a step that executes an instruction may have changed, and where it continues. -/
structure StepEffect (before : Machine) (now period : UInt64) (instruction : Instruction)
    (after : Machine) : Prop where
  /-- Whatever is in the two bytes afterwards. -/
  decoded : Instruction.decode? before.wordAtCounter = some instruction
  cells : ∀ address, (∀ offset < instruction.cellsWritten,
    address % 4096 ≠ (before.index.toNat + offset) % 4096) →
      after.byteAt address = before.byteAt address
  origin : after.memory.origin = before.memory.origin
  programSize : after.memory.programSize = before.memory.programSize
  screen : instruction.redraws = false → after.screen = before.screen
  index : instruction.movesIndex = false → after.index = before.index
  stack : instruction.movesStack = false → after.stack = before.stack
  sound : (∀ x, instruction ≠ .setSound x) → after.sound = before.sound
  delay : (∀ x, instruction ≠ .setDelay x) →
    after.delay = if before.DelayDue now period then before.delay - 1 else before.delay
  awaiting : (∀ x, instruction ≠ .awaitKey x) → after.awaiting = before.awaiting
  keypad : after.keypad = before.keypad
  random : after.random =
    if instruction.drawsByte then before.random.advance else before.random
  registers : ∀ y, ¬ instruction.Writes y → after.register y = before.register y
  counter : before.counterAfter instruction = some after.counter

theorem stackAfter_of_not_movesStack {instruction : Instruction}
    (still : instruction.movesStack = false) (machine : Machine) :
    machine.stackAfter instruction = machine.stack := by
  cases instruction with
  | ret | call target => cases still
  | _ => rfl

theorem awaited?_eq_none {instruction : Instruction}
    (other : ∀ x, instruction ≠ .awaitKey x) : instruction.awaited? = none := by
  cases instruction with
  | awaitKey x => exact absurd rfl (other x)
  | _ => rfl

/-- Every step that succeeds executes the instruction that its counter was on, changes of
the machine only what that instruction may change, and moves the counter where that
instruction leads. -/
theorem stepEffect_of_step {machine : Machine} {now period : UInt64}
    {instruction : Instruction} (succeeded : (machine.step now period).1 = .ok instruction) :
    StepEffect machine now period instruction (machine.step now period).2 := by
  rcases machine.step_cases now period with
    ⟨-, refused⟩ | ⟨-, fault, -, failed⟩ | ⟨-, found, decoded, free, executed⟩
  · rw [refused] at succeeded
    cases succeeded
  · rw [failed] at succeeded
    cases succeeded
  · rw [executed] at succeeded ⊢
    cases succeeded
    have counter := counter_execute free
    have framed := framed_execute (machine.ready now period) instruction
    have confined := confined_execute (machine.ready now period) instruction
    rw [ready_eq_passedOver] at counter framed confined ⊢
    exact
      { decoded := Instruction.decode_eq_ok_iff.mp (fetch_eq_wordAtCounter machine ▸ decoded)
        cells := confined.cells
        origin := framed.origin
        programSize := confined.programSize
        screen := confined.screen
        index := confined.index
        stack := fun still => framed.stack.trans (stackAfter_of_not_movesStack still _)
        sound := confined.sound
        delay := fun other => congrArg DelayTimer.value (framed.delayTimer other)
        awaiting := fun other => by rw [framed.awaiting, awaited?_eq_none other]; rfl
        keypad := confined.keypad
        random := confined.random
        registers := confined.registers
        counter }

/-- An instruction that stores two registers over itself. -/
theorem stepEffect_of_step_over_itself :
    let before := ((new (.counter 0 1)).performAll
      [.load [0x60, 0x07, 0xa2, 0x04, 0xf1, 0x55], .step 0 1, .step 0 1]).2
    let after := (before.step 5 1).2
    (before.step 5 1).1 = .ok (.storeRegisters 1) ∧
      StepEffect before 5 1 (.storeRegisters 1) after ∧
      before.wordAtCounter = 0xf155 ∧ after.byteAt 0x204 = 0x07 ∧
      after.byteAt 0x1203 = before.byteAt 0x1203 ∧ after.counter = 0x206 := by
  intro before after
  have succeeded : (before.step 5 1).1 = .ok (.storeRegisters 1) := by decide +kernel
  have effect := stepEffect_of_step succeeded
  obtain ⟨word, stored, index, moved⟩ : before.wordAtCounter = 0xf155 ∧
      after.byteAt 0x204 = 0x07 ∧ before.index = 0x204 ∧ before.counter + 2 = 0x206 := by
    decide +kernel
  have beside : after.byteAt 0x1203 = before.byteAt 0x1203 := by
    refine effect.cells 0x1203 fun offset inside => ?_
    have inside : offset < 2 := inside
    rw [index, show (0x204 : UInt16).toNat = 0x204 from rfl]
    omega
  have counter : some (before.counter + 2) = some after.counter := effect.counter
  exact ⟨succeeded, effect, word, stored, beside, (Option.some.inj counter).symm.trans moved⟩

end Machine

end ChipEight
