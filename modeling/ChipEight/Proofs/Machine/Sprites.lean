import ChipEight.Proofs.Machine.Blocks
import ChipEight.Proofs.Screen.Drawing

/-!
# The draw instruction

The instruction draws the bytes from I on at the place that two registers name, and leaves in VF
whether they have collided with the picture. VF may name the place too, and is read before that.
-/

set_option autoImplicit false

namespace ChipEight.Machine

open Screen

/-- The bytes in the cells from I on. -/
def rowsAtIndex (machine : Machine) (rows : Nat) : List UInt8 :=
  (List.range rows).map fun row => machine.byteAt ((machine.index.toNat + row) % 4096)

theorem spriteAt_eq_rowsAtIndex (machine : Machine) (rows : Nat) :
    machine.spriteAt rows = machine.rowsAtIndex rows := by
  apply List.map_congr_left
  intro row _
  rw [readAt_eq_byteAt, byteAt_mod]

/-- What is left when a sprite has been drawn. -/
structure DrawsSprite (x y : Register) (rows : Fin 16) (before after : Machine) : Prop where
  screen : after.screen =
    (before.screen.draw (before.rowsAtIndex rows.val) (before.register x) (before.register y)).1
  flag : after.register flagRegister =
    if (before.screen.draw (before.rowsAtIndex rows.val) (before.register x)
      (before.register y)).2 then 1 else 0
  withoutRows : rows = 0 → after.register flagRegister = 0
  others : ∀ z, z ≠ flagRegister → after.register z = before.register z
  memory : after.memory = before.memory
  index : after.index = before.index

theorem drawsSprite_execute (machine : Machine) (x y : Register) (rows : Fin 16) :
    DrawsSprite x y rows machine (machine.execute (.draw x y rows)) := by
  have confined := confined_execute machine (.draw x y rows)
  have sprite := machine.spriteAt_eq_rowsAtIndex rows.val
  have flag : (machine.execute (.draw x y rows)).register flagRegister =
      (machine.screen.draw (machine.spriteAt rows.val) (machine.register x)
        (machine.register y)).2.toUInt8 := register_setRegister_self _ flagRegister _
  rw [sprite] at flag
  constructor
  · rw [← sprite]
    rfl
  · rw [flag]
    generalize (machine.screen.draw _ _ _).2 = collided
    cases collided <;> rfl
  · rintro rfl
    exact flag
  · exact fun z other => confined.registers z other
  · rfl
  · exact confined.index rfl

/-- While nothing but the flag has changed, the same draw takes the sprite away again. -/
theorem DrawsSprite.redrawn {x y : Register} {rows : Fin 16} {before first later second : Machine}
    (xKept : x ≠ flagRegister) (yKept : y ≠ flagRegister)
    (drawn : DrawsSprite x y rows before first) (memory : later.memory = first.memory)
    (index : later.index = first.index) (registers : later.registers = first.registers)
    (screen : later.screen = first.screen) (again : DrawsSprite x y rows later second) :
    second.screen = before.screen ∧
      second.register flagRegister = if ((before.screen.draw (before.rowsAtIndex rows.val)
        (before.register x) (before.register y)).1.draw (before.rowsAtIndex rows.val)
          (before.register x) (before.register y)).2 then 1 else 0 := by
  have held : ∀ z, z ≠ flagRegister → later.register z = before.register z := by
    intro z other
    rw [register, registers]
    exact drawn.others z other
  have sprite : later.rowsAtIndex rows.val = before.rowsAtIndex rows.val := by
    simp only [rowsAtIndex, byteAt_of_memory (memory.trans drawn.memory), index, drawn.index]
  obtain ⟨picture, flag, -, -, -, -⟩ := again
  rw [held x xKept, held y yKept, sprite, screen, drawn.screen] at picture flag
  exact ⟨picture.trans (draw_draw before.screen _ _ _), flag⟩

/-- The instruction draws the bytes from I on, leaves the collision in VF, and changes nothing
else. Done again it takes the sprite away, and VF then tells whether it had set a pixel. -/
theorem draw_exact (x y : Register) (rows : Fin 16) :
    Does (.draw x y rows) (DrawsSprite x y rows) ∧
    (x ≠ flagRegister → y ≠ flagRegister → ∀ before first later second,
      Executed (.draw x y rows) before first →
      later.memory = first.memory → later.index = first.index →
      later.registers = first.registers → later.screen = first.screen →
      Executed (.draw x y rows) later second →
        second.screen = before.screen ∧
        (second.register flagRegister = 1 ↔ ∃ column < 64, ∃ row < 32,
          spriteCovers (before.rowsAtIndex rows.val) (before.register x).toNat
            (before.register y).toNat column row ∧ before.screen.get column row = false) ∧
        (second.register flagRegister = 0 ∨ second.register flagRegister = 1)) := by
  have draws : Does (.draw x y rows) (DrawsSprite x y rows) := by
    refine does_of_ready rfl fun before counter delay delaySince now => ?_
    obtain ⟨screen, flag, withoutRows, others, memory, index⟩ :=
      drawsSprite_execute { before with counter, delay, delaySince, now } x y rows
    exact ⟨screen, flag, withoutRows, others, memory, index⟩
  refine ⟨draws, ?_⟩
  intro xKept yKept before first later second drawing memory index registers screen redrawing
  obtain ⟨restored, flag⟩ := (draws.effect before first drawing).redrawn xKept yKept memory index
    registers screen (draws.effect later second redrawing)
  refine ⟨restored, ?_, ?_⟩
  · rw [← collided_draw_draw, flag]
    split
    case isTrue collided => exact iff_of_true rfl collided
    case isFalse clear => exact iff_of_false (by decide) clear
  · rw [flag]
    split
    case isTrue collided => exact .inr rfl
    case isFalse clear => exact .inl rfl

/-- The last two cells are empty and the font starts with a row of four pixels, so the sprite across
the end of memory has these alone. -/
theorem draw_exact_past_the_end :
    let before := ((new (.counter 0 1)).performAll
      [.load [0xaf, 0xfe, 0xd0, 0x13, 0xd0, 0x13], .step 0 1]).2
    let first := (before.step 0 1).2
    let second := (first.step 0 1).2
    before.rowsAtIndex 3 = [0x00, 0x00, 0xf0] ∧
      Executed (.draw 0 1 3) before first ∧ Executed (.draw 0 1 3) first second ∧
      (∀ z, z ≠ flagRegister → first.register z = before.register z) ∧
      second.screen = before.screen ∧ second.register flagRegister = 1 := by
  intro before first second
  obtain ⟨drawing, redrawing, rows, left, top, dark⟩ :
      (before.step 0 1).1 = .ok (.draw 0 1 3) ∧ (first.step 0 1).1 = .ok (.draw 0 1 3) ∧
      before.rowsAtIndex 3 = [0x00, 0x00, 0xf0] ∧ before.register 0 = 0 ∧
      before.register 1 = 0 ∧ before.screen.get 0 2 = false := by decide +kernel
  have drawn : Executed (.draw 0 1 3) before first := .inStep drawing
  have redrawn : Executed (.draw 0 1 3) first second := .inStep redrawing
  obtain ⟨draws, again⟩ := draw_exact 0 1 3
  obtain ⟨restored, unset, -⟩ := again (by decide) (by decide) before first first second drawn
    rfl rfl rfl rfl redrawn
  refine ⟨rows, drawn, redrawn, (draws.effect before first drawn).others, restored,
    unset.mpr ⟨0, by decide, 2, by decide, ?_, dark⟩⟩
  rw [show before.rowsAtIndex (3 : Fin 16).val = [0x00, 0x00, 0xf0] from rows, left, top]
  decide

end ChipEight.Machine
