import ChipEight.Proofs.Machine.Failure
import ChipEight.Proofs.Memory.Layout

/-!
# Loading a program

A program is loaded whole or not at all. One that fits leaves a machine in which nothing is
left of the time before, whatever the program before it has made of the memory; one that does
not fit leaves the machine as it is.
-/

set_option autoImplicit false

namespace ChipEight.Machine

/-- A machine with a program in its memory beside the font, at the start of that program. -/
structure ReadyToRun (program : List UInt8) (machine : Machine) : Prop where
  memory : machine.memory.ram.cells.toList =
    Font.glyphs ++ List.replicate 432 0 ++ program ++ List.replicate (3584 - program.length) 0
  programSize : machine.memory.programSize = program.length
  counter : machine.counter = 0x200
  index : machine.index = 0
  registers : ∀ x, machine.register x = 0
  delay : machine.delay = 0
  sound : machine.sound.value = 0
  keypad : machine.keypad.mask = 0
  stack : machine.stack = []
  screen : ∀ column row, machine.screen.get column row = false
  running : machine.awaiting = none

theorem readyToRun_loaded (machine : Machine) {program : List UInt8}
    (small : program.length ≤ programLimit) : ReadyToRun program (machine.loaded program) where
  memory := ProgramMemory.toList_layout (Nat.le_trans small (by decide))
  programSize := rfl
  counter := rfl
  index := rfl
  registers x := Vector.getElem_replicate x.isLt
  delay := rfl
  sound := rfl
  keypad := rfl
  stack := rfl
  screen := Screen.get_blank
  running := rfl

/-- A program is loaded exactly if it fits beside the font and the area below it. -/
theorem load_all_or_nothing {machine : Machine} (reached : Reachable machine)
    (program : List UInt8) :
    ((machine.load program).1 = .ok () ↔ 80 + 512 + program.length ≤ 4096) ∧
    ((machine.load program).1 = .ok () → ReadyToRun program (machine.load program).2) ∧
    ((machine.load program).1 ≠ .ok () →
      machine.load program = (.error (.programTooLarge program.length 3504), machine)) := by
  rcases Nat.lt_or_ge programLimit program.length with large | small
  · have limit : 3504 < program.length := large
    rw [load_of_large large]
    refine ⟨iff_of_false nofun (by omega), nofun, fun _ => rfl⟩
  · have limit : program.length ≤ 3504 := small
    rw [load_of_small reached.origin small]
    exact ⟨iff_of_true rfl (by omega), fun _ => machine.readyToRun_loaded small,
      fun failed => absurd rfl failed⟩

/-- A program has stored across the end of memory, into the font, and waits for a key with the
delay timer running; one program replaces all of that, and another one is too long by a byte. -/
theorem load_all_or_nothing_awaiting_key :
    let used := ((new (.counter 0 1)).performAll
      [.load [0x60, 0x05, 0xaf, 0xff, 0xf1, 0x55, 0xf0, 0x15, 0xf2, 0x0a],
        .step 1 1, .step 1 1, .step 1 1, .step 1 1, .step 1 1]).2
    (used.awaiting = some 2 ∧ used.byteAt 0 = 0 ∧ used.delay = 5) ∧
      (used.load [0x12, 0x00]).1 = .ok () ∧
      ReadyToRun [0x12, 0x00] (used.load [0x12, 0x00]).2 ∧
      used.load (List.replicate 3505 0) = (.error (.programTooLarge 3505 3504), used) := by
  intro used
  have reached : Reachable used := (Reachable.new (.counter 0 1)).performAll _
  obtain ⟨succeeds, ready, -⟩ := load_all_or_nothing reached [0x12, 0x00]
  obtain ⟨onlyIf, -, refused⟩ := load_all_or_nothing reached (List.replicate 3505 0)
  have long : (List.replicate 3505 (0 : UInt8)).length = 3505 := List.length_replicate
  have loaded : (used.load [0x12, 0x00]).1 = .ok () := succeeds.mpr (by decide)
  have failed : (used.load (List.replicate 3505 0)).1 ≠ .ok () := by
    rw [Ne, onlyIf, long]
    decide
  refine ⟨by decide +kernel, loaded, ready loaded, ?_⟩
  rw [refused failed, long]

end ChipEight.Machine
