import ChipEight.Proofs.Machine.CallStack
import ChipEight.Proofs.Machine.Execution
import Mathlib.Algebra.Group.Nat.Defs

/-!
# The order of the random bytes

Every random instruction that is executed takes the next byte, even if its mask hides all of it.
Nothing else takes one: no other instruction, no step that fails, no key, and no load. So which
byte an instruction takes is how many have been executed before it since the machine was made.
-/

set_option autoImplicit false

namespace ChipEight

def Reply.drawsByte : Reply → Bool
  | .executed instruction => instruction.drawsByte
  | _ => false

theorem Reply.drawsByte_ofOutcome (outcome : Except Fault Unit) :
    (ofOutcome outcome).drawsByte = false := by
  cases outcome with
  | ok done => rfl
  | error fault => rfl

/-- The bytes that are left are the low bytes of 64-bit numbers, the first of which is `start` and
each of which exceeds the one before it by `increment`. -/
def RandomBytes.StepsBy (source : RandomBytes) (start increment : UInt64) : Prop :=
  ∀ draws, (source.byte (source.drawn + draws)).toNat =
    (start.toNat + draws * increment.toNat) % 2 ^ 64 % 256

theorem RandomBytes.stepsBy_counter (start increment : UInt64) :
    (counter start increment).StepsBy start increment := by
  intro draws
  have product : (UInt64.ofNat draws * increment).toNat = draws * increment.toNat % 2 ^ 64 := by
    rw [UInt64.toNat_mul, UInt64.toNat_ofNat', Nat.mod_mul_mod]
  calc ((counter start increment).byte (0 + draws)).toNat
      = (start + UInt64.ofNat (0 + draws) * increment).toNat % 256 := UInt64.toNat_toUInt8 _
    _ = (start.toNat + draws * increment.toNat) % 2 ^ 64 % 256 := by
        rw [Nat.zero_add, UInt64.toNat_add, product, Nat.add_mod_mod]

namespace Machine

/-! ## Operations -/

theorem random_step (machine : Machine) (now period : UInt64) :
    (machine.step now period).2.random =
      if (Reply.ofStep (machine.step now period).1).drawsByte then machine.random.advance
      else machine.random := by
  rcases machine.step_cases now period with
    ⟨-, refused⟩ | ⟨-, fault, -, failed⟩ | ⟨-, instruction, -, -, executed⟩
  · rw [refused]
    rfl
  · rw [failed, ready_eq]
    rfl
  · have drawn := (confined_execute (machine.ready now period) instruction).random
    rw [executed]
    rw [ready_eq] at drawn ⊢
    exact drawn

theorem random_install (machine : Machine) (outcome : Except Fault Unit × ProgramMemory) :
    (machine.install outcome).2.random = machine.random := by
  obtain ⟨result, memory⟩ := outcome
  cases result with
  | ok done => rfl
  | error fault => rfl

theorem random_perform (machine : Machine) (operation : Operation) :
    (machine.perform operation).2.random =
      if (machine.perform operation).1.drawsByte then machine.random.advance
      else machine.random := by
  cases operation with
  | step now period => exact machine.random_step now period
  | press key =>
      rw [perform, Prod.map, Reply.drawsByte_ofOutcome, id, press_eq]
      rfl
  | release key =>
      rw [perform, Prod.map, Reply.drawsByte_ofOutcome, id, release_eq]
      rfl
  | load program =>
      rw [perform, Prod.map, Reply.drawsByte_ofOutcome]
      exact machine.random_install _
  | loadFrom stream =>
      rw [perform, Prod.map, Reply.drawsByte_ofOutcome]
      exact machine.random_install _
  | readSound | writeSound value | lowerSound => rfl

/-- Of the random bytes, as many more are used up as random instructions have been executed. -/
theorem random_performAll (machine : Machine) (operations : List Operation) :
    (machine.performAll operations).2.random =
      { machine.random with
        drawn := machine.random.drawn +
          (machine.performAll operations).1.countP Reply.drawsByte } := by
  induction operations generalizing machine with
  | nil => rfl
  | cons operation later ih =>
      have first := machine.random_perform operation
      rw [performAll_cons, ih, List.countP_cons]
      cases draws : (machine.perform operation).1.drawsByte with
      | true =>
          rw [draws] at first
          rw [first]
          simp only [if_true, RandomBytes.advance, Nat.add_assoc, Nat.add_comm 1]
      | false =>
          rw [draws] at first
          rw [first]
          rfl

/-! ## The instruction -/

/-- What is left when a random byte has been put in VX. -/
structure DrawsByte (x : Register) (mask : UInt8) (before after : Machine) : Prop where
  result : after.register x = before.random.next &&& mask
  used : after.random = before.random.advance

theorem does_drawByte (x : Register) (mask : UInt8) :
    Does (.random x mask) (DrawsByte x mask) := by
  refine does_of_ready rfl fun before counter delay delaySince now => ?_
  exact ⟨register_setRegister_self _ x _, rfl⟩

/-- The k-th random instruction to be executed in the life of a machine, whatever is asked of
the machine meanwhile, leaves the low byte of `start + k * increment` in its register, under its
mask; and nothing else uses up a byte. -/
theorem bytes_drawn_in_order {source : RandomBytes} {start increment : UInt64}
    (steps : source.StepsBy start increment) (operations : List Operation) :
    let reached := (new source).performAll operations
    let machine := reached.2
    let drawn := reached.1.countP Reply.drawsByte
    machine.random = { source with drawn := source.drawn + drawn } ∧
    (∀ operation, (machine.perform operation).1.drawsByte = false →
      (machine.perform operation).2.random = machine.random) ∧
    ∀ x mask,
      (∀ now period, machine.awaiting = none →
        machine.wordAtCounter = (Instruction.random x mask).encode →
          (machine.step now period).1 = .ok (.random x mask)) ∧
      ∀ after, Executed (.random x mask) machine after →
        (after.register x).toNat =
            (start.toNat + drawn * increment.toNat) % 2 ^ 64 % 256 &&& mask.toNat ∧
          after.random = { source with drawn := source.drawn + drawn + 1 } := by
  intro reached machine drawn
  have random : machine.random = { source with drawn := source.drawn + drawn } :=
    random_performAll (new source) operations
  refine ⟨random, ?_, ?_⟩
  · intro operation idle
    have kept := machine.random_perform operation
    rw [idle] at kept
    exact kept
  · intro x mask
    obtain ⟨effect, obeyed⟩ := does_drawByte x mask
    refine ⟨obeyed machine, fun after executed => ?_⟩
    obtain ⟨result, used⟩ := effect machine after executed
    rw [random] at result used
    refine ⟨?_, used⟩
    rw [result, UInt8.toNat_and]
    exact congrArg (· &&& mask.toNat) (steps drawn)

/-- A byte that its mask hides, a key out of range and another load come before the second draw. -/
theorem bytes_drawn_in_order_second :
    let source := RandomBytes.counter 250 7
    let operations : List Operation :=
      [.load [0xc0, 0x00], .step 0 1, .press 16, .load [0xc1, 0xff]]
    let machine := ((new source).performAll operations).2
    let after := (machine.step 0 1).2
    source.StepsBy 250 7 ∧ (machine.step 0 1).1 = .ok (.random 1 0xff) ∧
      (after.register 1).toNat = 1 ∧ after.random.drawn = 2 ∧
      (machine.perform (.press 16)).2.random = machine.random := by
  intro source operations machine after
  obtain ⟨one, running, word, refused⟩ :
      ((new source).performAll operations).1.countP Reply.drawsByte = 1 ∧
      machine.awaiting = none ∧ machine.wordAtCounter = (Instruction.random 1 0xff).encode ∧
      (machine.perform (.press 16)).1.drawsByte = false := by decide +kernel
  have steps : source.StepsBy 250 7 := RandomBytes.stepsBy_counter 250 7
  obtain ⟨-, idle, draws⟩ := bytes_drawn_in_order steps operations
  obtain ⟨obeyed, leaves⟩ := draws 1 0xff
  have executed : (machine.step 0 1).1 = .ok (.random 1 0xff) := obeyed 0 1 running word
  obtain ⟨result, used⟩ := leaves after (.inStep executed)
  rw [one] at result used
  exact ⟨steps, executed, result, congrArg RandomBytes.drawn used, idle (.press 16) refused⟩

end Machine

end ChipEight
