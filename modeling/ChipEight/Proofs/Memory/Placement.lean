import ChipEight.Proofs.Memory.Layout

/-!
# Programs at any address

A memory may be told to keep its program at another address. A program that fits there is laid
out over the font. Its size is checked as if it were kept at the usual address, though, so a
program that passes the end of memory from its own address on is refused only once memory is
cleared.
-/

set_option autoImplicit false

namespace ChipEight.ProgramMemory

/-- A program in memory, with the font wherever the program does not cover it and zeros
everywhere else. -/
structure Contains (bytes : List UInt8) (memory : ProgramMemory) : Prop where
  program : ∀ offset < bytes.length,
    memory.ram.cells[memory.origin.toNat + offset]? = bytes[offset]?
  font : ∀ cell < 80,
    cell < memory.origin.toNat ∨ memory.origin.toNat + bytes.length ≤ cell →
      memory.ram.cells[cell]? = Font.glyphs[cell]?
  zeros : ∀ cell, 80 ≤ cell → cell < 4096 →
    cell < memory.origin.toNat ∨ memory.origin.toNat + bytes.length ≤ cell →
      memory.ram.cells[cell]? = some 0
  programSize : memory.programSize = bytes.length

/-- The memory with the font in it and nothing else, though it keeps the size of its program. -/
def cleared (memory : ProgramMemory) : ProgramMemory := { memory with ram := blank.ram }

theorem load_of_too_large {memory : ProgramMemory} {program : List UInt8}
    (large : 3504 < program.length) :
    memory.load program = (.error (.programTooLarge program.length 3504), memory) := by
  rw [load]
  exact if_pos large

theorem load_of_fits {memory : ProgramMemory} {program : List UInt8}
    (small : program.length ≤ 3504) (fits : memory.origin.toNat + program.length ≤ 4096) :
    memory.load program =
      (.ok (), { memory with
        ram := layout memory.origin program
        programSize := program.length }) := by
  rw [load]
  exact (if_neg (Nat.not_lt.mpr small)).trans (if_pos fits)

theorem load_of_not_fits {memory : ProgramMemory} {program : List UInt8}
    (small : program.length ≤ 3504) (passes : 4096 < memory.origin.toNat + program.length) :
    memory.load program = (.error .programOutsideMemory, memory.cleared) := by
  rw [load]
  exact (if_neg (Nat.not_lt.mpr small)).trans (if_neg (Nat.not_le.mpr passes))

theorem contains_layout {memory : ProgramMemory} {program : List UInt8}
    (fits : memory.origin.toNat + program.length ≤ 4096) :
    Contains program { memory with
      ram := layout memory.origin program
      programSize := program.length } := by
  have cells : ∀ cell, cell < 4096 → (layout memory.origin program).cells[cell]? =
      some ((if memory.origin.toNat ≤ cell then program[cell - memory.origin.toNat]?
        else none).getD (Font.glyphs[cell]?.getD 0)) := by
    intro cell inside
    have inside : cell < ramSize := inside
    rw [Vector.getElem?_eq_getElem inside, getElem_layout_at memory.origin program inside]
  have beside : ∀ cell, cell < memory.origin.toNat ∨ memory.origin.toNat + program.length ≤ cell →
      (if memory.origin.toNat ≤ cell then program[cell - memory.origin.toNat]? else none) =
        none := by
    intro cell outside
    split
    · exact List.getElem?_eq_none (by omega)
    · rfl
  refine ⟨fun offset within => ?_, fun cell drawn outside => ?_, fun cell above inside outside => ?_,
    rfl⟩
  · have reach : memory.origin.toNat + offset - memory.origin.toNat = offset :=
      Nat.add_sub_cancel_left _ _
    dsimp only
    rw [cells _ (by omega), if_pos (Nat.le_add_right _ _), reach,
      List.getElem?_eq_getElem within, Option.getD_some]
  · have within : cell < Font.glyphs.length := drawn
    dsimp only
    rw [cells cell (by omega), beside cell outside, Option.getD_none,
      List.getElem?_eq_getElem within, Option.getD_some]
  · have past : Font.glyphs[cell]? = none := List.getElem?_eq_none above
    dsimp only
    rw [cells cell inside, beside cell outside, past]
    rfl

/-- A program is loaded exactly if it is no longer than it may be at the usual address and does
not pass the end of memory from its own address on. One that is too long leaves memory alone, and
one that passes the end has cleared it. -/
theorem load_at_any_address (memory : ProgramMemory) (program : List UInt8) :
    ((memory.load program).1 = .ok () ↔
      program.length ≤ 3504 ∧ memory.origin.toNat + program.length ≤ 4096) ∧
    ((memory.load program).1 = .ok () → Contains program (memory.load program).2 ∧
      (memory.load program).2.origin = memory.origin) ∧
    ((memory.load program).1 ≠ .ok () → memory.load program =
      if 3504 < program.length then (.error (.programTooLarge program.length 3504), memory)
      else (.error .programOutsideMemory, memory.cleared)) ∧
    ((memory.load program).1 ≠ .ok () →
      ((memory.load program).2 = memory ↔
        3504 < program.length ∨ memory.ram = blank.ram)) := by
  rcases Nat.lt_or_ge 3504 program.length with large | small
  · rw [load_of_too_large large, if_pos large]
    exact ⟨iff_of_false nofun fun fits => absurd fits.1 (Nat.not_le.mpr large), nofun,
      fun _ => rfl, fun _ => iff_of_true rfl (.inl large)⟩
  · rcases Nat.lt_or_ge 4096 (memory.origin.toNat + program.length) with passes | fits
    · rw [load_of_not_fits small passes, if_neg (Nat.not_lt.mpr small)]
      refine ⟨iff_of_false nofun fun fits => absurd fits.2 (Nat.not_le.mpr passes), nofun,
        fun _ => rfl, fun _ => ?_⟩
      constructor
      · intro same
        exact .inr (congrArg ram same).symm
      · rintro (large | blank)
        · exact absurd large (Nat.not_lt.mpr small)
        · exact congrArg (fun ram => { memory with ram }) blank.symm
    · rw [load_of_fits small fits]
      exact ⟨iff_of_true rfl ⟨small, fits⟩, fun _ => ⟨contains_layout fits, rfl⟩,
        fun failed => absurd rfl failed, fun failed => absurd rfl failed⟩

/-- A program that covers the end of the font. -/
theorem load_at_any_address_over_font :
    let memory : ProgramMemory := { blank with origin := 76 }
    let program : List UInt8 := [1, 2, 3, 4, 5, 6]
    let after := (memory.load program).2
    (memory.load program).1 = .ok () ∧ Contains program after ∧
      after.ram.cells[75]? = some 0xf0 ∧ after.ram.cells[79]? = some 4 ∧
      after.ram.cells[81]? = some 6 ∧ after.ram.cells[82]? = some 0 := by
  intro memory program after
  obtain ⟨succeeds, holds, -⟩ := load_at_any_address memory program
  have loaded : (memory.load program).1 = .ok () := succeeds.mpr (by decide)
  obtain ⟨contains, origin⟩ : Contains program after ∧ after.origin = 76 := holds loaded
  have start : after.origin.toNat = 76 := congrArg UInt16.toNat origin
  clear_value after
  have placed := contains.program
  have font := contains.font
  have zeros := contains.zeros
  rw [start] at placed font zeros
  exact ⟨loaded, contains, font 75 (by decide) (by decide), placed 3 (by decide),
    placed 5 (by decide), zeros 82 (by decide) (by decide) (by decide)⟩

/-- Two bytes at the last address: what was in memory is lost, and they are not in it. -/
theorem not_always_left_alone :
    ¬ ∀ (memory : ProgramMemory) (program : List UInt8),
      (memory.load program).1 = .ok () ∨ (memory.load program).2 = memory := by
  intro leftAlone
  let memory : ProgramMemory := ⟨layout programStart [0x12, 0x34], 4095, 2⟩
  have refused : memory.load [0x56, 0x78] = (.error .programOutsideMemory, memory.cleared) :=
    load_of_not_fits (by decide) (by decide)
  rcases leftAlone memory [0x56, 0x78] with loaded | same
  · rw [refused] at loaded
    cases loaded
  · rw [refused] at same
    have ram : memory.cleared.ram = memory.ram := congrArg ProgramMemory.ram same
    have lost := congrArg (fun after : Memory ramSize => after.cells[512]?) ram
    have inside : 512 < ramSize := by decide
    simp only [cleared, blank, memory, Vector.getElem?_eq_getElem inside,
      getElem_layout _ inside] at lost
    exact absurd lost (by decide)

end ChipEight.ProgramMemory
