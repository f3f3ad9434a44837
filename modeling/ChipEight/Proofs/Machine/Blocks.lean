import ChipEight.Proofs.Machine.Execution

/-!
# Blocks of memory

Registers are stored to the cells from I on and loaded from there, and a number is stored there
digit by digit. A block counts on past the last address and past the last cell alike, so wherever
I points its cells are as many as its bytes.
-/

set_option autoImplicit false

namespace ChipEight.Machine

/-! ## Cells of a block -/

theorem byteAt_mod (machine : Machine) (address : Nat) :
    machine.byteAt (address % 4096) = machine.byteAt address := by
  have same : address % 4096 % ramSize = address % ramSize := Nat.mod_mod address 4096
  simp only [byteAt, same]

theorem byteAt_of_memory {machine other : Machine} (same : machine.memory = other.memory)
    (address : Nat) : machine.byteAt address = other.byteAt address := by
  rw [byteAt, byteAt, same]

theorem readAt_eq_byteAt (machine : Machine) (offset : Nat) :
    machine.readAt offset = machine.byteAt (machine.index.toNat + offset) := by
  have cell : (machine.index + UInt16.ofNat offset).toNat % 4096 =
      (machine.index.toNat + offset) % 4096 := cellOf_add_ofNat machine.index offset
  rw [readAt, read_eq_byteAt, ← byteAt_mod, cell, byteAt_mod]

theorem byteAt_writeAt_self (machine : Machine) (offset : Nat) (value : UInt8) :
    (machine.writeAt offset value).byteAt (machine.index.toNat + offset) = value := by
  have cell := cellOf_add_ofNat machine.index offset
  simp only [byteAt, writeAt, Memory.write, cell]
  exact Vector.getElem_setIfInBounds_self _

/-- Two offsets below the size of memory are of two cells. -/
theorem cell_ne_of_offset_ne (start : Nat) {offset other : Nat} (apart : offset ≠ other)
    (small : offset < 4096) (otherSmall : other < 4096) :
    (start + offset) % 4096 ≠ (start + other) % 4096 := by
  omega

theorem byteAt_foldl_writeAt_self {machine : Machine} {registers : List Register} {x : Register}
    (among : x ∈ registers) :
    (registers.foldl (fun machine register =>
      machine.writeAt register.val (machine.register register)) machine).byteAt
        (machine.index.toNat + x.val) = machine.register x := by
  induction registers generalizing machine with
  | nil => cases among
  | cons register later ih =>
      by_cases again : x ∈ later
      · exact @ih (machine.writeAt register.val (machine.register register)) again
      · obtain rfl | later := List.mem_cons.mp among
        · have others : ∀ other ∈ later, (machine.index.toNat + x.val) % 4096 ≠
              (machine.index.toNat + other.val) % 4096 := by
            intro other member
            refine cell_ne_of_offset_ne _ ?_ (by omega) (by omega)
            intro same
            exact again (Fin.ext same ▸ member)
          calc _ = (machine.writeAt x.val (machine.register x)).byteAt _ :=
                byteAt_foldl_writeAt others
            _ = machine.register x := byteAt_writeAt_self machine x.val _
        · exact absurd later again

theorem register_foldl_setRegister_self {machine : Machine} {registers : List Register}
    {x : Register} (among : x ∈ registers) :
    (registers.foldl (fun machine register =>
      machine.setRegister register (machine.readAt register.val)) machine).register x =
        machine.readAt x.val := by
  induction registers generalizing machine with
  | nil => cases among
  | cons register later ih =>
      by_cases again : x ∈ later
      · exact @ih (machine.setRegister register (machine.readAt register.val)) again
      · obtain rfl | later := List.mem_cons.mp among
        · rw [List.foldl_cons, register_foldl_setRegister _ again, register_setRegister_self]
        · exact absurd later again

/-! ## Storing -/

/-- What is left when the registers up to VX have been stored. -/
structure StoresRegisters (x : Register) (before after : Machine) : Prop where
  stored : ∀ y ≤ x, after.byteAt ((before.index.toNat + y.val) % 4096) = before.register y
  elsewhere : ∀ cell < 4096, (∀ y ≤ x, cell ≠ (before.index.toNat + y.val) % 4096) →
    after.byteAt cell = before.byteAt cell
  origin : after.memory.origin = before.memory.origin
  programSize : after.memory.programSize = before.memory.programSize
  index : after.index = before.index
  registers : ∀ y, after.register y = before.register y

theorem storesRegisters_execute (machine : Machine) (x : Register) :
    StoresRegisters x machine (machine.execute (.storeRegisters x)) := by
  have confined := confined_execute machine (.storeRegisters x)
  constructor
  · intro y low
    rw [byteAt_mod]
    exact byteAt_foldl_writeAt_self (mem_registersUpTo.mpr low)
  · intro cell inside apart
    refine confined.cells cell fun offset written => ?_
    have offset' : offset < 16 := Nat.lt_of_lt_of_le written x.isLt
    rw [Nat.mod_eq_of_lt inside]
    exact apart ⟨offset, offset'⟩ (Nat.le_of_lt_succ written)
  · exact (framed_execute machine (.storeRegisters x)).origin
  · exact confined.programSize
  · exact confined.index rfl
  · exact fun y => confined.registers y not_false

/-- What is left when the three digits of the number in VX have been stored. -/
structure StoresDecimal (x : Register) (before after : Machine) : Prop where
  digits : ∀ offset < 3, after.byteAt ((before.index.toNat + offset) % 4096) ≤ 9
  value : 100 * (after.byteAt (before.index.toNat % 4096)).toNat +
      10 * (after.byteAt ((before.index.toNat + 1) % 4096)).toNat +
        (after.byteAt ((before.index.toNat + 2) % 4096)).toNat = (before.register x).toNat
  elsewhere : ∀ cell < 4096, (∀ offset < 3, cell ≠ (before.index.toNat + offset) % 4096) →
    after.byteAt cell = before.byteAt cell
  origin : after.memory.origin = before.memory.origin
  programSize : after.memory.programSize = before.memory.programSize
  index : after.index = before.index
  registers : ∀ y, after.register y = before.register y

theorem byteAt_storeDecimal_digits (machine : Machine) (value : UInt8) :
    ((machine.storeDecimal value).byteAt machine.index.toNat).toNat = value.toNat / 100 ∧
      ((machine.storeDecimal value).byteAt (machine.index.toNat + 1)).toNat =
        value.toNat / 10 % 10 ∧
      ((machine.storeDecimal value).byteAt (machine.index.toNat + 2)).toNat =
        value.toNat % 10 := by
  let start := machine.index
  let first := machine.writeAt 0 (value / 100)
  let second := first.writeAt 1 (value / 10 % 10)
  have hundreds : (second.writeAt 2 (value % 10)).byteAt start.toNat = value / 100 := by
    calc _ = second.byteAt start.toNat := @byteAt_writeAt second start rfl _ 2 (by omega) _
      _ = first.byteAt start.toNat := @byteAt_writeAt first start rfl _ 1 (by omega) _
      _ = value / 100 := byteAt_writeAt_self machine 0 _
  have tens : (second.writeAt 2 (value % 10)).byteAt (start.toNat + 1) = value / 10 % 10 := by
    calc _ = second.byteAt (start.toNat + 1) := @byteAt_writeAt second start rfl _ 2 (by omega) _
      _ = value / 10 % 10 := byteAt_writeAt_self first 1 _
  have units := byteAt_writeAt_self second 2 (value % 10)
  refine ⟨?_, ?_, ?_⟩
  · exact (congrArg UInt8.toNat hundreds).trans (UInt8.toNat_div value 100)
  · exact (congrArg UInt8.toNat tens).trans (UInt8.toNat_mod (value / 10) 10)
  · exact (congrArg UInt8.toNat units).trans (UInt8.toNat_mod value 10)

theorem storesDecimal_execute (machine : Machine) (x : Register) :
    StoresDecimal x machine (machine.execute (.storeDecimal x)) := by
  have confined := confined_execute machine (.storeDecimal x)
  obtain ⟨hundreds, tens, units⟩ := machine.byteAt_storeDecimal_digits (machine.register x)
  have bound := (machine.register x).toNat_lt
  constructor
  · intro offset inside
    rw [execute, byteAt_mod, UInt8.le_iff_toNat_le]
    change _ ≤ 9
    obtain rfl | rfl | rfl : offset = 0 ∨ offset = 1 ∨ offset = 2 := by omega
    · rw [Nat.add_zero, hundreds]
      omega
    · rw [tens]
      omega
    · rw [units]
      omega
  · rw [execute, byteAt_mod, byteAt_mod, byteAt_mod, hundreds, tens, units]
    omega
  · intro cell inside apart
    refine confined.cells cell fun offset written => ?_
    rw [Nat.mod_eq_of_lt inside]
    exact apart offset written
  · exact (framed_execute machine (.storeDecimal x)).origin
  · exact confined.programSize
  · exact confined.index rfl
  · exact fun y => confined.registers y not_false

/-! ## Loading -/

/-- What is left when the registers up to VX have been loaded. -/
structure LoadsRegisters (x : Register) (before after : Machine) : Prop where
  loaded : ∀ y ≤ x, after.register y = before.byteAt ((before.index.toNat + y.val) % 4096)
  others : ∀ y, x < y → after.register y = before.register y
  memory : after.memory = before.memory
  index : after.index = before.index

theorem loadsRegisters_execute (machine : Machine) (x : Register) :
    LoadsRegisters x machine (machine.execute (.loadRegisters x)) := by
  have confined := confined_execute machine (.loadRegisters x)
  constructor
  · intro y low
    rw [byteAt_mod, ← readAt_eq_byteAt]
    exact register_foldl_setRegister_self (mem_registersUpTo.mpr low)
  · exact fun y beyond => confined.registers y (Nat.not_le.mpr beyond)
  · rw [execute, loadRegisters_eq]
  · exact confined.index rfl

/-! ## Storing and loading in turn -/

theorem memory_eq_of_byteAt_eq {machine other : Machine}
    (same : ∀ cell < 4096, machine.byteAt cell = other.byteAt cell)
    (origin : machine.memory.origin = other.memory.origin)
    (programSize : machine.memory.programSize = other.memory.programSize) :
    machine.memory = other.memory := by
  have cells : machine.memory.ram.cells = other.memory.ram.cells := by
    refine Vector.ext fun cell inside => ?_
    have here := same cell inside
    have whole : cell % ramSize = cell := Nat.mod_eq_of_lt inside
    simp only [byteAt, whole] at here
    exact here
  have ram : machine.memory.ram = other.memory.ram := congrArg Memory.mk cells
  calc machine.memory
      = ⟨machine.memory.ram, machine.memory.origin, machine.memory.programSize⟩ := rfl
    _ = other.memory := by rw [ram, origin, programSize]

/-- Registers that have been stored are found again as long as their cells and I are as they were
left, whatever the registers hold by then. -/
theorem StoresRegisters.loaded_back {x : Register} {before stored later loaded : Machine}
    (stores : StoresRegisters x before stored) (memory : later.memory = stored.memory)
    (index : later.index = stored.index) (loads : LoadsRegisters x later loaded) {y : Register}
    (low : y ≤ x) : loaded.register y = before.register y := by
  rw [loads.loaded y low, byteAt_of_memory memory, index, stores.index]
  exact stores.stored y low

theorem LoadsRegisters.stored_back {x : Register} {before loaded later stored : Machine}
    (loads : LoadsRegisters x before loaded) (memory : later.memory = loaded.memory)
    (index : later.index = loaded.index) (registers : later.registers = loaded.registers)
    (stores : StoresRegisters x later stored) : stored.memory = before.memory := by
  have memory : later.memory = before.memory := memory.trans loads.memory
  have index : later.index = before.index := index.trans loads.index
  refine memory_eq_of_byteAt_eq ?_ (stores.origin.trans (congrArg _ memory))
    (stores.programSize.trans (congrArg _ memory))
  intro cell inside
  by_cases block : ∃ y ≤ x, cell = (later.index.toNat + y.val) % 4096
  · obtain ⟨y, low, rfl⟩ := block
    have held : later.register y = loaded.register y := by rw [register, registers, register]
    rw [stores.stored y low, held, loads.loaded y low, index]
  · have apart : ∀ y ≤ x, cell ≠ (later.index.toNat + y.val) % 4096 :=
      fun y low same => block ⟨y, low, same⟩
    exact (stores.elsewhere cell inside apart).trans (byteAt_of_memory memory cell)

/-- The registers up to VX go to as many cells from I on and come back from them, a number goes
there as three digits, and nothing else in memory changes, wherever I points. -/
theorem blocks_exact (x : Register) :
    Does (.storeRegisters x) (StoresRegisters x) ∧
    Does (.loadRegisters x) (LoadsRegisters x) ∧
    Does (.storeDecimal x) (StoresDecimal x) ∧
    (∀ before stored later loaded, Executed (.storeRegisters x) before stored →
      later.memory = stored.memory → later.index = stored.index →
      Executed (.loadRegisters x) later loaded →
        (∀ y ≤ x, loaded.register y = before.register y) ∧
        (∀ y, x < y → loaded.register y = later.register y) ∧
        loaded.memory = stored.memory ∧ loaded.index = before.index) ∧
    ∀ before loaded later stored, Executed (.loadRegisters x) before loaded →
      later.memory = loaded.memory → later.index = loaded.index →
      later.registers = loaded.registers → Executed (.storeRegisters x) later stored →
        stored.memory = before.memory ∧ stored.index = before.index := by
  have stores : Does (.storeRegisters x) (StoresRegisters x) := by
    refine does_of_ready rfl fun before counter delay delaySince now => ?_
    obtain ⟨stored, elsewhere, origin, programSize, index, registers⟩ :=
      storesRegisters_execute { before with counter, delay, delaySince, now } x
    exact ⟨stored, elsewhere, origin, programSize, index, registers⟩
  have loads : Does (.loadRegisters x) (LoadsRegisters x) := by
    refine does_of_ready rfl fun before counter delay delaySince now => ?_
    obtain ⟨loaded, others, memory, index⟩ :=
      loadsRegisters_execute { before with counter, delay, delaySince, now } x
    exact ⟨loaded, others, memory, index⟩
  have decimal : Does (.storeDecimal x) (StoresDecimal x) := by
    refine does_of_ready rfl fun before counter delay delaySince now => ?_
    obtain ⟨digits, value, elsewhere, origin, programSize, index, registers⟩ :=
      storesDecimal_execute { before with counter, delay, delaySince, now } x
    exact ⟨digits, value, elsewhere, origin, programSize, index, registers⟩
  refine ⟨stores, loads, decimal, ?_, ?_⟩
  · intro before stored later loaded storing memory index loading
    have kept := stores.effect before stored storing
    have back := loads.effect later loaded loading
    exact ⟨fun y low => kept.loaded_back memory index back low, back.others,
      back.memory.trans memory, back.index.trans (index.trans kept.index)⟩
  · intro before loaded later stored loading memory index registers storing
    have taken := loads.effect before loaded loading
    have back := stores.effect later stored storing
    exact ⟨taken.stored_back memory index registers back,
      back.index.trans (index.trans taken.index)⟩

/-- Three registers go to the last two cells and the first one, and come back to registers of which
one has been cleared. -/
theorem blocks_exact_past_the_end :
    let before := ((new (.counter 0 1)).performAll
      [.load [0x60, 0x07, 0x61, 0x08, 0x62, 0x09, 0xaf, 0xfe, 0xf2, 0x55],
        .step 0 1, .step 0 1, .step 0 1, .step 0 1]).2
    let stored := (before.step 0 1).2
    let later := stored.execute (.setByte 2 0)
    let loaded := later.execute (.loadRegisters 2)
    Executed (.storeRegisters 2) before stored ∧ stored.byteAt 0 = 9 ∧
      later.register 2 = 0 ∧ loaded.register 2 = 9 := by
  intro before stored later loaded
  obtain ⟨executed, index, nine⟩ : (before.step 0 1).1 = .ok (.storeRegisters 2) ∧
      before.index = 0xffe ∧ before.register 2 = 9 := by decide +kernel
  have storing : Executed (.storeRegisters 2) before stored := .inStep executed
  have cleared : ∀ machine : Machine, (machine.execute (.setByte 2 0)).memory = machine.memory ∧
      (machine.execute (.setByte 2 0)).index = machine.index := fun _ => ⟨rfl, rfl⟩
  obtain ⟨stores, -, -, back, -⟩ := blocks_exact 2
  obtain ⟨restored, -, -, -⟩ := back before stored later loaded storing (cleared stored).1
    (cleared stored).2 .outright
  have lowest := (stores.effect before stored storing).stored 2 (Nat.le_refl 2)
  rw [index] at lowest
  exact ⟨storing, lowest.trans nine, register_setRegister_self stored 2 0,
    (restored 2 (Nat.le_refl 2)).trans nine⟩

end ChipEight.Machine
