import ChipEight.Proofs.Machine.Frame

/-!
# Surroundings of a machine

The clock, the two timers and the random bytes are where the host reaches into a machine.
Four instructions look there; every other one does the same whatever it finds.
-/

set_option autoImplicit false

namespace ChipEight

/-- What the host has a hand in. -/
structure Surroundings where
  delay : UInt8
  delaySince : UInt64
  now : UInt64
  sound : SoundTimer
  random : RandomBytes

/-- Whether an instruction reads or changes the surroundings. -/
def Instruction.looksOut : Instruction → Bool
  | .random _ _ | .readDelay _ | .setDelay _ | .setSound _ => true
  | _ => false

namespace Machine

def surroundings (machine : Machine) : Surroundings :=
  ⟨machine.delay, machine.delaySince, machine.now, machine.sound, machine.random⟩

/-- The machine in other surroundings. -/
def within (machine : Machine) (others : Surroundings) : Machine :=
  { machine with
    delay := others.delay
    delaySince := others.delaySince
    now := others.now
    sound := others.sound
    random := others.random }

variable (machine : Machine) (others : Surroundings)

theorem holds_within (condition : Condition) :
    (machine.within others).holds condition = machine.holds condition := by
  cases condition <;> rfl

theorem obstacle_within (instruction : Instruction) :
    (machine.within others).obstacle? instruction = machine.obstacle? instruction := by
  cases instruction <;> rfl

theorem compute_within (operation : Arithmetic) (x y : Register) :
    (machine.within others).compute operation x y =
      (machine.compute operation x y).within others := by
  unfold compute
  dsimp only
  cases met : operation.flag? (machine.register x) (machine.register y) with
  | none =>
      rw [show operation.flag? ((machine.within others).register x)
        ((machine.within others).register y) = none from met]
      rfl
  | some flag =>
      rw [show operation.flag? ((machine.within others).register x)
        ((machine.within others).register y) = some flag from met]
      dsimp only
      split <;> rfl

theorem storeRegisters_within (x : Register) :
    (machine.within others).storeRegisters x = (machine.storeRegisters x).within others :=
  List.foldl_hom (within · others) fun _ _ => rfl

theorem loadRegisters_within (x : Register) :
    (machine.within others).loadRegisters x = (machine.loadRegisters x).within others :=
  List.foldl_hom (within · others) fun _ _ => rfl

theorem execute_within {instruction : Instruction} (inward : instruction.looksOut = false) :
    (machine.within others).execute instruction =
      (machine.execute instruction).within others := by
  cases instruction with
  | ret =>
      cases entries : machine.stack with
      | nil =>
          have same : (machine.within others).stack = [] := entries
          simp only [execute, entries, same]
      | cons back older =>
          have same : (machine.within others).stack = back :: older := entries
          simp only [execute, entries, same]
          rfl
  | skip condition =>
      simp only [execute, holds_within]
      split <;> rfl
  | arithmetic operation x y => exact compute_within machine others operation x y
  | storeRegisters x => exact storeRegisters_within machine others x
  | loadRegisters x => exact loadRegisters_within machine others x
  | random x mask | readDelay x | setDelay x | setSound x => cases inward
  | _ => rfl

/-- An instruction that does not look out leaves the surroundings alone. -/
theorem surroundings_execute {instruction : Instruction}
    (inward : instruction.looksOut = false) :
    (machine.execute instruction).surroundings = machine.surroundings := by
  have same : machine.execute instruction =
      (machine.execute instruction).within machine.surroundings :=
    execute_within machine machine.surroundings inward
  rw [same]
  rfl

/-- Other random bytes make a difference to the one instruction that draws one. -/
theorem execute_withRandom (random : RandomBytes) {instruction : Instruction}
    (other : ∀ x mask, instruction ≠ .random x mask) :
    { machine with random }.execute instruction =
      { machine.execute instruction with random } := by
  cases looks : instruction.looksOut with
  | true =>
      cases instruction with
      | random x mask => exact absurd rfl (other x mask)
      | readDelay x | setDelay x | setSound x => rfl
      | _ => cases looks
  | false =>
      calc { machine with random }.execute instruction
          = (machine.execute instruction).within { machine.surroundings with random } :=
            execute_within machine { machine.surroundings with random } looks
        _ = (machine.execute instruction).within
              { (machine.execute instruction).surroundings with random } := by
            rw [surroundings_execute machine looks]
        _ = { machine.execute instruction with random } := rfl

end Machine

end ChipEight
