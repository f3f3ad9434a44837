import ChipEight.Proofs.Cells.Memory
import ChipEight.Proofs.Cells.Sprite
import ChipEight.Proofs.Delay.Bookkeeping

/-!
# Instructions in cells

On a machine laid out in cells every access of every instruction is in range, whatever
the program counter and I hold, and the instruction does there what it does to the
machine.
-/

set_option autoImplicit false

namespace ChipEight

/-- The machine reads bytes as its memory does. -/
theorem CellMachine.read_eq_readByte (machine : CellMachine) (address : UInt16) :
    machine.read address = Cells.readByte machine.bytes address := by
  have small : address.toNat % machine.bytes.size < 65536 :=
    Nat.lt_of_le_of_lt (Nat.mod_le _ _) address.toNat_lt
  have kept : (UInt16.ofNat (address.toNat % machine.bytes.size)).toNat =
      address.toNat % machine.bytes.size := UInt16.toNat_ofNat_of_lt' small
  rw [CellMachine.read, Cells.readByte, Cells.wrap, Cells.remainder]
  split
  case isTrue => rfl
  case isFalse =>
      rw [Cells.ok_bind, Cells.ok_bind]
      dsimp only [pure, Except.pure]
      rw [Cells.ok_bind, kept]

/-- The machine laid out in cells, with what the slots of the call stack hold. -/
def Machine.inCells (machine : Machine) (slots : Array UInt16) : CellMachine where
  bytes := machine.memory.ram.cells.toArray
  origin := machine.memory.origin
  programSize := machine.memory.programSize
  pixels := machine.screen.pixels.toArray
  registers := machine.registers.toArray
  index := machine.index
  counter := machine.counter
  slots
  depth := machine.stack.length
  delay := machine.delay
  delaySince := machine.delaySince
  now := machine.now
  sound := machine.sound.value
  keys := machine.keypad.mask
  awaiting := machine.awaiting.map (·.val)
  random := machine.random

/-- The slots hold the stack from its oldest entry on; the slots after it are stale. -/
structure Stacked (slots : Array UInt16) (stack : List UInt16) : Prop where
  size : slots.size = callDepthLimit
  holds : stack.reverse <+: slots.toList

namespace Stacked

variable {slots : Array UInt16} {stack : List UInt16}

theorem depth_le (stacked : Stacked slots stack) : stack.length ≤ callDepthLimit := by
  calc stack.length = stack.reverse.length := List.length_reverse.symm
    _ ≤ slots.toList.length := stacked.holds.length_le
    _ = callDepthLimit := stacked.size

theorem nil (size : slots.size = callDepthLimit) : Stacked slots [] :=
  ⟨size, List.nil_prefix⟩

theorem push (stacked : Stacked slots stack) (back : UInt16) (room : stack.length < slots.size) :
    Stacked (slots.setIfInBounds stack.length back) (back :: stack) := by
  obtain ⟨stale, split⟩ := stacked.holds
  refine ⟨by simpa using stacked.size, stale.tail, ?_⟩
  have more : stale ≠ [] := by
    rintro rfl
    rw [← Array.length_toList, ← split] at room
    simp at room
  obtain ⟨newest, rest, rfl⟩ := List.exists_cons_of_ne_nil more
  rw [Array.toList_setIfInBounds, ← split, List.set_append_right _ _ (by simp)]
  simp

theorem pop {back : UInt16} (stacked : Stacked slots (back :: stack)) :
    Stacked slots stack := by
  obtain ⟨stale, split⟩ := stacked.holds
  exact ⟨stacked.size, back :: stale, by simpa using split⟩

theorem newest {back : UInt16} (stacked : Stacked slots (back :: stack)) :
    Cells.fetch slots stack.length = .ok back := by
  obtain ⟨stale, split⟩ := stacked.holds
  have found : slots.toList[stack.length]? = some back := by
    rw [← split]
    simp
  rw [Cells.fetch, ← Array.getElem?_toList, found]

end Stacked

namespace Machine

open Cells

variable (machine : Machine) (slots : Array UInt16)

/-! ## Registers and memory -/

theorem register_inCells (x : Register) :
    (machine.inCells slots).register x.val = .ok (machine.register x) := by
  rw [CellMachine.register, fetch_eq _ _ (by simp [inCells])]
  rfl

theorem setRegister_inCells (x : Register) (value : UInt8) :
    (machine.inCells slots).setRegister x.val value =
      .ok ((machine.setRegister x value).inCells slots) := by
  rw [CellMachine.setRegister, store_eq _ _ _ (by simp [inCells]), ok_bind]
  simp [inCells, setRegister, Array.setIfInBounds, pure, Except.pure]

theorem setFlag_inCells (flag : Bool) :
    (machine.inCells slots).setFlag flag = .ok ((machine.setFlag flag).inCells slots) :=
  setRegister_inCells machine slots flagRegister flag.toUInt8

theorem cell_inCells (address : UInt16) :
    remainder address.toNat (machine.inCells slots).bytes.size =
      .ok (Memory.cellOf ramSize address) := by
  rw [remainder_eq _ _ (by simp [inCells])]
  simp [inCells, Memory.cellOf]

theorem read_inCells (address : UInt16) :
    (machine.inCells slots).read address = .ok (machine.memory.ram.read address) :=
  (CellMachine.read_eq_readByte _ address).trans
    (Memory.readByte_cells machine.memory.ram (by decide) address)

theorem write_inCells (address : UInt16) (value : UInt8) :
    (machine.inCells slots).write address value =
      .ok ({ machine with
        memory := { machine.memory with ram := machine.memory.ram.write address value }
        }.inCells slots) := by
  have inside := Memory.cellOf_lt (by decide : 0 < ramSize) address
  rw [CellMachine.write, cell_inCells, ok_bind,
    overwrite_one _ _ _ (by simpa [inCells] using inside), ok_bind]
  simp [inCells, Memory.write, pure, Except.pure]

theorem readAt_inCells (offset : Nat) :
    (machine.inCells slots).readAt offset = .ok (machine.readAt offset) :=
  read_inCells machine slots _

theorem writeAt_inCells (offset : Nat) (value : UInt8) :
    (machine.inCells slots).writeAt offset value =
      .ok ((machine.writeAt offset value).inCells slots) :=
  write_inCells machine slots _ value

theorem word_inCells (address : UInt16) :
    (machine.inCells slots).word address = .ok (machine.memory.ram.word address) := by
  rw [CellMachine.word, read_inCells, ok_bind, read_inCells, ok_bind]
  rfl

/-! ## Parts of instructions -/

theorem isDown_inCells (key : UInt8) :
    (machine.inCells slots).isDown key = .ok (machine.keypad.isDown key) := by
  rw [CellMachine.isDown, Keypad.isDown]
  split
  case isTrue small =>
      rw [bit_eq key small, ok_bind]
      simp [small, inCells, Keypad.bit, pure, Except.pure]
  case isFalse large =>
      simp [large, pure, Except.pure]

theorem holds_inCells (condition : Condition) :
    (machine.inCells slots).holds condition = .ok (machine.holds condition) := by
  cases condition with
  | equalByte x byte | unequalByte x byte =>
      rw [CellMachine.holds, register_inCells, ok_bind]
      rfl
  | equal x y | unequal x y =>
      rw [CellMachine.holds, register_inCells, ok_bind, register_inCells, ok_bind]
      rfl
  | pressed x =>
      rw [CellMachine.holds, register_inCells, ok_bind, isDown_inCells]
      rfl
  | released x =>
      rw [CellMachine.holds, register_inCells, ok_bind, isDown_inCells, ok_bind]
      rfl

theorem compute_inCells (operation : Arithmetic) (x y : Register) :
    (machine.inCells slots).compute operation x.val y.val =
      .ok ((machine.compute operation x y).inCells slots) := by
  rw [CellMachine.compute, register_inCells, ok_bind, register_inCells, ok_bind, compute]
  dsimp only
  cases operation.flag? (machine.register x) (machine.register y) with
  | none => exact setRegister_inCells machine slots x _
  | some flag =>
      dsimp only
      split
      · rw [setRegister_inCells, ok_bind, setFlag_inCells]
      · rw [setFlag_inCells, ok_bind, setRegister_inCells]

theorem setFlag_setRegister (value : UInt8) (flag : Bool) :
    (machine.setRegister flagRegister value).setFlag flag = machine.setFlag flag := by
  simp [setFlag, setRegister, Vector.set_set]

theorem drawSprite_inCells (x y : Register) (rows : Fin 16) :
    (machine.inCells slots).drawSprite x.val y.val rows.val =
      .ok ((machine.drawSprite x y rows.val).inCells slots) := by
  have fits : 0 + rows.val ≤ (Array.replicate 15 (0 : UInt8)).size := by
    rw [Array.size_replicate]
    omega
  have gathered : (List.range rows.val).mapM (machine.inCells slots).readAt =
      .ok (machine.spriteAt rows.val) := by
    rw [funext (readAt_inCells machine slots)]
    exact List.mapM_pure
  let picture := machine.screen.draw (machine.spriteAt rows.val) (machine.register x)
    (machine.register y)
  have drawn : CellMachine.drawRows (machine.register x).toNat (machine.spriteAt rows.val)
      (machine.register y).toNat (machine.screen.pixels.toArray, false) =
      .ok (Screen.inCells picture) :=
    CellMachine.drawRows_inCells _ _ _ (machine.screen, false)
  have flagged : (({ machine with screen := picture.1 }.setRegister flagRegister 0).inCells
      slots).setFlag picture.2 = .ok ((machine.drawSprite x y rows.val).inCells slots) := by
    rw [setFlag_inCells, setFlag_setRegister]
    rfl
  rw [CellMachine.drawSprite, register_inCells, ok_bind, register_inCells, ok_bind, block,
    if_pos fits, ok_bind, Array.size_extract, Array.size_replicate,
    show min (0 + rows.val) 15 - 0 = rows.val by omega, gathered, ok_bind,
    setRegister_inCells, ok_bind]
  -- Clearing the flag first leaves the picture that is drawn on.
  rw [show ((machine.setRegister flagRegister 0).inCells slots).pixels =
    machine.screen.pixels.toArray from rfl, drawn, ok_bind]
  exact flagged

theorem storeDecimal_inCells (value : UInt8) :
    (machine.inCells slots).storeDecimal value =
      .ok ((machine.storeDecimal value).inCells slots) := by
  rw [CellMachine.storeDecimal, writeAt_inCells, ok_bind, writeAt_inCells, ok_bind,
    writeAt_inCells]
  rfl

theorem range_eq_registersUpTo (x : Register) :
    List.range (x.val + 1) = (registersUpTo x).map (·.val) := by
  revert x
  decide

private theorem foldlM_inCells (act : CellMachine → Nat → Except Trap CellMachine)
    (change : Machine → Register → Machine)
    (agree : ∀ (machine : Machine) (register : Register),
      act (machine.inCells slots) register.val = .ok ((change machine register).inCells slots))
    (registers : List Register) :
    (registers.map (·.val)).foldlM act (machine.inCells slots) =
      .ok ((registers.foldl change machine).inCells slots) := by
  induction registers generalizing machine with
  | nil => rfl
  | cons register later ih =>
      rw [List.map_cons, List.foldlM_cons, agree, ok_bind, ih]
      rfl

theorem storeRegisters_inCells (x : Register) :
    (machine.inCells slots).storeRegisters x.val =
      .ok ((machine.storeRegisters x).inCells slots) := by
  rw [CellMachine.storeRegisters, range_eq_registersUpTo]
  apply foldlM_inCells machine slots _
    (fun machine register => machine.writeAt register.val (machine.register register))
  intro machine register
  rw [register_inCells, ok_bind, writeAt_inCells]

theorem loadRegisters_inCells (x : Register) :
    (machine.inCells slots).loadRegisters x.val =
      .ok ((machine.loadRegisters x).inCells slots) := by
  rw [CellMachine.loadRegisters, range_eq_registersUpTo]
  apply foldlM_inCells machine slots _
    (fun machine register => machine.setRegister register (machine.readAt register.val))
  intro machine register
  rw [readAt_inCells, ok_bind, setRegister_inCells]

/-- Five times a byte fits into an address, so the product of the model never wraps. -/
theorem glyphAddress_eq (digit : UInt8) :
    CellMachine.glyphAddress digit =
      .ok (Font.address + digit.toUInt16 * UInt16.ofNat Font.glyphHeight) := by
  have bound : digit.toNat < 256 := digit.toNat_lt
  rw [CellMachine.glyphAddress, wide_eq _ (by simp only [Font.glyphHeight]; omega), ok_bind]
  rw [wide_eq _ (by simp [Font.address, Font.glyphHeight]; omega)]
  refine congrArg Except.ok (UInt16.toNat_inj.mp ?_)
  simp [Font.address, Font.glyphHeight]

/-! ## Instructions -/

/-- Where an instruction leads: nowhere, if there is an obstacle to it. -/
def afterInstruction (machine : Machine) (instruction : Instruction) : Machine :=
  match machine.obstacle? instruction with
  | some _ => machine
  | none => machine.execute instruction

theorem execute_inCells (machine : Machine) (slots : Array UInt16)
    (stacked : Stacked slots machine.stack) (instruction : Instruction) :
    ∃ left, Stacked left (machine.afterInstruction instruction).stack ∧
      (machine.inCells slots).execute instruction =
        .ok (machine.obstacle? instruction,
          (machine.afterInstruction instruction).inCells left) := by
  cases instruction with
  | clearScreen =>
      refine ⟨slots, stacked, ?_⟩
      simp [CellMachine.execute, afterInstruction, obstacle?, execute, inCells, Screen.blank,
        pure, Except.pure]
  | ret =>
      cases entries : machine.stack with
      | nil =>
          refine ⟨slots, by simpa [afterInstruction, obstacle?, entries] using stacked, ?_⟩
          simp [CellMachine.execute, afterInstruction, obstacle?, entries, inCells, pure,
            Except.pure]
      | cons back older =>
          rw [entries] at stacked
          refine ⟨slots, ?_, ?_⟩
          · simpa [afterInstruction, obstacle?, execute, entries] using stacked.pop
          · have depth : (machine.inCells slots).depth = older.length + 1 := by
              simp [inCells, entries]
            have newest : Cells.fetch (machine.inCells slots).slots (older.length + 1 - 1) =
                .ok back := stacked.newest
            rw [CellMachine.execute, if_neg (by omega), depth, less_eq _ _ (by omega), ok_bind,
              newest, ok_bind]
            simp [afterInstruction, obstacle?, execute, entries, inCells, pure, Except.pure]
  | call target =>
      by_cases room : machine.stack.length < callDepthLimit
      · have inside : machine.stack.length < slots.size := by rw [stacked.size]; exact room
        refine ⟨slots.setIfInBounds machine.stack.length machine.counter, ?_, ?_⟩
        · simpa [afterInstruction, obstacle?, execute, room] using
            stacked.push machine.counter inside
        · have below : (machine.inCells slots).depth ≠ callDepthLimit := Nat.ne_of_lt room
          have stored : store (machine.inCells slots).slots (machine.inCells slots).depth
              (machine.inCells slots).counter =
              .ok (slots.setIfInBounds machine.stack.length machine.counter) :=
            store_eq _ _ _ inside
          rw [CellMachine.execute, if_neg below, stored, ok_bind]
          simp [afterInstruction, obstacle?, execute, room, inCells, pure, Except.pure]
      · have full : (machine.inCells slots).depth = callDepthLimit :=
          Nat.le_antisymm stacked.depth_le (Nat.le_of_not_lt room)
        refine ⟨slots, by simpa [afterInstruction, obstacle?, room] using stacked, ?_⟩
        rw [CellMachine.execute, if_pos full]
        simp [afterInstruction, obstacle?, room, pure, Except.pure]
  | jump target => exact ⟨slots, stacked, rfl⟩
  | skip condition =>
      rw [CellMachine.execute, holds_inCells, ok_bind]
      simp only [afterInstruction, obstacle?, execute]
      split
      · exact ⟨slots, stacked, rfl⟩
      · exact ⟨slots, stacked, rfl⟩
  | setByte x byte =>
      rw [CellMachine.execute, setRegister_inCells]
      exact ⟨slots, stacked, rfl⟩
  | addByte x byte =>
      rw [CellMachine.execute, register_inCells, ok_bind, setRegister_inCells]
      exact ⟨slots, stacked, rfl⟩
  | arithmetic operation x y =>
      rw [CellMachine.execute, compute_inCells]
      refine ⟨slots, ?_, rfl⟩
      simp only [afterInstruction, obstacle?, execute]
      rw [compute_eq]
      exact stacked
  | setIndex target => exact ⟨slots, stacked, rfl⟩
  | jumpOffset target =>
      rw [CellMachine.execute, register_inCells]
      exact ⟨slots, stacked, rfl⟩
  | random x mask =>
      have drawn := setRegister_inCells { machine with random := machine.random.advance } slots
        x (machine.random.next &&& mask)
      refine ⟨slots, stacked, ?_⟩
      rw [CellMachine.execute]
      exact bind_of_eq drawn
  | draw x y rows =>
      rw [CellMachine.execute, drawSprite_inCells]
      exact ⟨slots, stacked, rfl⟩
  | readDelay x =>
      have noted := setRegister_inCells machine slots x machine.delay
      refine ⟨slots, stacked, ?_⟩
      rw [CellMachine.execute]
      exact bind_of_eq noted
  | awaitKey x => exact ⟨slots, stacked, rfl⟩
  | setDelay x =>
      rw [CellMachine.execute, register_inCells]
      exact ⟨slots, stacked, rfl⟩
  | setSound x =>
      rw [CellMachine.execute, register_inCells]
      exact ⟨slots, stacked, rfl⟩
  | addIndex x =>
      rw [CellMachine.execute, register_inCells]
      exact ⟨slots, stacked, rfl⟩
  | glyph x =>
      rw [CellMachine.execute, register_inCells, ok_bind, glyphAddress_eq]
      exact ⟨slots, stacked, rfl⟩
  | storeDecimal x =>
      rw [CellMachine.execute, register_inCells, ok_bind, storeDecimal_inCells]
      exact ⟨slots, stacked, rfl⟩
  | storeRegisters x =>
      rw [CellMachine.execute, storeRegisters_inCells]
      refine ⟨slots, ?_, rfl⟩
      simp only [afterInstruction, obstacle?, execute]
      rw [storeRegisters_eq]
      exact stacked
  | loadRegisters x =>
      rw [CellMachine.execute, loadRegisters_inCells]
      refine ⟨slots, ?_, rfl⟩
      simp only [afterInstruction, obstacle?, execute]
      rw [loadRegisters_eq]
      exact stacked

end Machine

end ChipEight
