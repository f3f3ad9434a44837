import ChipEight.Proofs.Machine.Effects
import ChipEight.Proofs.Memory.Layout

/-!
# The font in memory

Every program that is loaded finds the font at the bottom of memory. Nothing keeps its
instructions from storing there, as they store wherever I points; but a byte of the font that
none of them has stored to since is still in its place.
-/

set_option autoImplicit false

namespace ChipEight.Machine

/-! ## Loading -/

theorem mod_of_drawn {cell : Nat} {byte : UInt8} (drawn : Font.glyphs[cell]? = some byte) :
    cell % ramSize = cell := by
  have within : cell < 80 := (List.getElem?_eq_some_iff.mp drawn).1
  exact Nat.mod_eq_of_lt (Nat.lt_trans within (by decide))

theorem byteAt_of_layout {machine : Machine} {program : List UInt8}
    (laid : machine.memory.ram = ProgramMemory.layout programStart program) {cell : Nat}
    {byte : UInt8} (drawn : Font.glyphs[cell]? = some byte) : machine.byteAt cell = byte := by
  have within : cell < 80 := (List.getElem?_eq_some_iff.mp drawn).1
  have inside : cell % ramSize < ramSize := Nat.mod_lt cell (by decide)
  rw [byteAt, laid]
  change (ProgramMemory.layout programStart program).cells[cell % ramSize] = byte
  rw [ProgramMemory.getElem_layout program inside, mod_of_drawn drawn, if_neg (by omega), drawn,
    Option.getD_some]

/-! ## Storing -/

/-- The cells that a machine stores to in an operation with this reply. -/
def cellsStored (machine : Machine) : Reply → List Nat
  | .executed instruction => (List.range instruction.cellsWritten).map fun offset =>
      (machine.index.toNat + offset) % ramSize
  | .done | .level _ | .refused _ => []

theorem byteAt_step {machine : Machine} {now period : UInt64} {address : Nat}
    (elsewhere : address % ramSize ∉ machine.cellsStored (.ofStep (machine.step now period).1)) :
    (machine.step now period).2.byteAt address = machine.byteAt address := by
  rcases machine.step_cases now period with
    ⟨-, refused⟩ | ⟨-, fault, -, failed⟩ | ⟨-, instruction, -, -, executed⟩
  · rw [refused]
  · rw [failed, ready_eq]
    rfl
  · rw [executed] at elsewhere ⊢
    have confined := confined_execute (machine.ready now period) instruction
    rw [ready_eq] at confined ⊢
    refine confined.cells address fun offset inside stored => elsewhere ?_
    exact List.mem_map.mpr ⟨offset, List.mem_range.mpr inside, stored.symm⟩

theorem byteAt_perform {machine : Machine} (placed : machine.memory.origin = programStart)
    {operation : Operation}
    (notLoaded : operation.loaded (machine.perform operation).1 = false) {address : Nat}
    (elsewhere : address % ramSize ∉ machine.cellsStored (machine.perform operation).1) :
    (machine.perform operation).2.byteAt address = machine.byteAt address := by
  by_cases loads : operation.loads = true
  · rcases perform_of_loads placed loads with ⟨program, loaded⟩ | ⟨fault, -, refused⟩
    · rw [loaded, Operation.loaded, loads] at notLoaded
      cases notLoaded
    · rw [refused]
  · cases operation with
    | step now period => exact byteAt_step elsewhere
    | press key =>
        rw [perform, Prod.map, id, press_eq]
        rfl
    | release key =>
        rw [perform, Prod.map, id, release_eq]
        rfl
    | load program | loadFrom stream => exact absurd rfl loads
    | readSound | writeSound value | lowerSound => rfl

theorem byteAt_perform_of_loaded {machine : Machine}
    (placed : machine.memory.origin = programStart) {operation : Operation}
    (loaded : operation.loaded (machine.perform operation).1 = true) {cell : Nat} {byte : UInt8}
    (drawn : Font.glyphs[cell]? = some byte) :
    (machine.perform operation).2.byteAt cell = byte := by
  obtain ⟨loads, succeeded⟩ := Bool.and_eq_true_iff.mp loaded
  rcases perform_of_loads placed loads with ⟨program, installed⟩ | ⟨fault, -, refused⟩
  · rw [installed]
    exact byteAt_of_layout rfl drawn
  · rw [refused] at succeeded
    cases of_decide_eq_true succeeded

/-! ## Histories -/

/-- A machine with the cells that have been stored to since a program was loaded, or since the
machine was made. -/
structure Marked where
  machine : Machine
  stored : List Nat := []

namespace Marked

def perform (marked : Marked) (operation : Operation) : Marked :=
  let (reply, next) := marked.machine.perform operation
  { machine := next
    stored :=
      if operation.loaded reply then [] else marked.machine.cellsStored reply ++ marked.stored }

/-- Operations in turn, on a new machine. -/
def performAll (random : RandomBytes) (operations : List Operation) : Marked :=
  operations.foldl perform { machine := .new random }

theorem performAll_concat (random : RandomBytes) (operations : List Operation)
    (operation : Operation) :
    performAll random (operations ++ [operation]) =
      (performAll random operations).perform operation :=
  List.foldl_append

theorem machine_performAll (random : RandomBytes) (operations : List Operation) :
    (performAll random operations).machine = ((new random).performAll operations).2 := by
  induction operations using List.reverseRecOn with
  | nil => rfl
  | append_singleton operations operation ih =>
      rw [performAll_concat, performAll_append, ← ih]
      rfl

theorem origin_performAll (random : RandomBytes) (operations : List Operation) :
    (performAll random operations).machine.memory.origin = programStart := by
  rw [machine_performAll]
  exact ((Reachable.new random).performAll operations).origin

theorem font_performAll (random : RandomBytes) (operations : List Operation) {cell : Nat}
    {byte : UInt8} (drawn : Font.glyphs[cell]? = some byte)
    (untouched : cell ∉ (performAll random operations).stored) :
    (performAll random operations).machine.byteAt cell = byte := by
  induction operations using List.reverseRecOn with
  | nil => exact byteAt_of_layout rfl drawn
  | append_singleton operations operation ih =>
      have placed := origin_performAll random operations
      rw [performAll_concat] at untouched ⊢
      generalize performAll random operations = marked at ih placed untouched ⊢
      cases loaded : operation.loaded (marked.machine.perform operation).1 with
      | true => exact byteAt_perform_of_loaded placed loaded drawn
      | false =>
          simp only [perform, loaded, Bool.false_eq_true, if_false, List.mem_append,
            not_or] at untouched
          obtain ⟨now, before⟩ := untouched
          have same : cell % ramSize = cell := mod_of_drawn drawn
          refine (byteAt_perform placed loaded ?_).trans (ih before)
          rw [same]
          exact now

end Marked

/-! ## Glyphs -/

theorem index_step_of_glyph {machine : Machine} {now period : UInt64} {x : Register}
    (executed : (machine.step now period).1 = .ok (.glyph x)) :
    (machine.step now period).2.index.toNat =
      Font.glyphHeight * (machine.register x).toNat := by
  have same : (machine.ready now period).register x = machine.register x := by
    rw [ready_eq]
    rfl
  have bound := (machine.register x).toNat_lt
  rw [(step_of_ok executed).2, execute, same]
  simp only [UInt16.toNat_add, UInt16.toNat_mul, UInt8.toNat_toUInt16, Font.address,
    Font.glyphHeight, UInt16.toNat_ofNat', UInt16.toNat_zero]
  omega

/-- A program can store over the font. -/
theorem not_font_always_resident :
    ¬ ∀ machine, Reachable machine → ∀ cell byte, Font.glyphs[cell]? = some byte →
      machine.byteAt cell = byte := by
  intro resident
  have reached := (Reachable.new (.counter 0 1)).performAll
    [.load [0xa0, 0x00, 0xf0, 0x55], .step 0 1, .step 0 1]
  have overwritten : ((new (.counter 0 1)).performAll
      [.load [0xa0, 0x00, 0xf0, 0x55], .step 0 1, .step 0 1]).2.byteAt 0 = 0 := by
    decide +kernel
  exact absurd (overwritten.symm.trans (resident _ reached 0 0xf0 rfl)) (by decide)

/-- Every byte of the font is in its place unless an instruction has stored to it since the
program was loaded, and I points at the glyph of a digit once its number has been taken for a
glyph. -/
theorem font_unless_stored (random : RandomBytes) (operations : List Operation) :
    let marked := Marked.performAll random operations
    marked.machine = ((new random).performAll operations).2 ∧
    (∀ cell byte, Font.glyphs[cell]? = some byte → cell ∉ marked.stored →
      marked.machine.byteAt cell = byte) ∧
    ∀ now period x, let step := marked.machine.step now period
      step.1 = .ok (.glyph x) →
        step.2.index.toNat = Font.glyphHeight * (marked.machine.register x).toNat ∧
        (marked.machine.register x ≤ 0xf → ∀ row < Font.glyphHeight,
          step.2.index.toNat + row ∉ marked.stored →
            Font.glyphs[step.2.index.toNat + row]? =
              some (step.2.byteAt (step.2.index.toNat + row))) := by
  intro marked
  refine ⟨Marked.machine_performAll random operations,
    fun cell byte drawn => Marked.font_performAll random operations drawn, ?_⟩
  intro now period x step executed
  have index := index_step_of_glyph executed
  refine ⟨index, fun digit row inside untouched => ?_⟩
  have small : (marked.machine.register x).toNat ≤ 15 := UInt8.le_iff_toNat_le.mp digit
  have within : step.2.index.toNat + row < Font.glyphs.length := by
    rw [Font.length_glyphs, index]
    simp only [Font.glyphHeight] at inside ⊢
    omega
  have drawn := List.getElem?_eq_getElem within
  have kept : step.2.byteAt (step.2.index.toNat + row) =
      marked.machine.byteAt (step.2.index.toNat + row) := byteAt_step (by rw [executed]; exact nofun)
  rw [drawn, kept, Marked.font_performAll random operations drawn untouched]

/-- A number is stored in decimal across the end of memory, so that the first byte of the font
is lost; what an earlier program has stored over the digit one is whole again. -/
theorem font_unless_stored_digit_one :
    let operations : List Operation :=
      [.load [0xa0, 0x05, 0xf0, 0x55], .step 0 1, .step 0 1,
        .load [0x60, 0x01, 0xaf, 0xfe, 0xf0, 0x33, 0xf0, 0x29],
        .step 0 1, .step 0 1, .step 0 1]
    let marked := Marked.performAll (.counter 0 1) operations
    let step := marked.machine.step 0 1
    marked.stored = [4094, 4095, 0] ∧ marked.machine.byteAt 0 = 1 ∧
      step.1 = .ok (.glyph 0) ∧ step.2.index.toNat = 5 ∧
      ∀ row < 5, Font.glyphs[5 + row]? = some (step.2.byteAt (5 + row)) := by
  intro operations
  have facts : (Marked.performAll (.counter 0 1) operations).stored = [4094, 4095, 0] ∧
      (Marked.performAll (.counter 0 1) operations).machine.byteAt 0 = 1 ∧
      ((Marked.performAll (.counter 0 1) operations).machine.step 0 1).1 = .ok (.glyph 0) ∧
      (Marked.performAll (.counter 0 1) operations).machine.register 0 = 1 := by
    decide +kernel
  obtain ⟨-, -, glyphs⟩ := font_unless_stored (.counter 0 1) operations
  -- From here on nothing but these facts counts of the machine.
  generalize Marked.performAll (.counter 0 1) operations = marked at facts glyphs ⊢
  obtain ⟨stored, lost, executed, one⟩ := facts
  obtain ⟨index, bytes⟩ := glyphs 0 1 0 executed
  have five : (marked.machine.step 0 1).2.index.toNat = 5 := by
    rw [index, one]
    rfl
  refine ⟨stored, lost, executed, five, fun row inside => ?_⟩
  have untouched : (marked.machine.step 0 1).2.index.toNat + row ∉ marked.stored := by
    rw [five, stored]
    simp only [List.mem_cons, List.not_mem_nil, or_false, not_or]
    omega
  have digit : marked.machine.register 0 ≤ 0xf := by
    rw [one]
    decide
  have byte := bytes digit row inside untouched
  rw [five] at byte
  exact byte

end ChipEight.Machine
