import ChipEight.Proofs.Machine.Execution

/-!
# Arithmetic with a flag

What the arithmetic group makes of two registers, in terms of the numbers that they hold. Both
registers may be the flag, and may be the same; then the order of the two writes shows, and a
sum leaves its carry where every other operation leaves its result.
-/

set_option autoImplicit false

namespace ChipEight

namespace Arithmetic

/-- The number that an operation makes of the numbers of VX and VY. -/
def number (left right : Nat) : Arithmetic → Nat
  | .copy => right
  | .or => left ||| right
  | .and => left &&& right
  | .xor => left ^^^ right
  | .add => (left + right) % 256
  | .subtract => (((left : Int) - right) % 256).toNat
  | .shiftRight => left / 2
  | .subtractFrom => (((right : Int) - left) % 256).toNat
  | .shiftLeft => 2 * left % 256

/-- What the flag tells of an operation that has one. -/
def signal? (left right : Nat) : Arithmetic → Option Nat
  | .copy | .or | .and | .xor => none
  | .add => some (if 255 < left + right then 1 else 0)
  | .subtract => some (if right < left then 1 else 0)
  | .shiftRight => some (left % 2)
  | .subtractFrom => some (if left < right then 1 else 0)
  | .shiftLeft => some (if 128 ≤ left then 1 else 0)

theorem toNat_result (left right : UInt8) (operation : Arithmetic) :
    (operation.result left right).toNat = operation.number left.toNat right.toNat := by
  have leftBound := left.toNat_lt
  have rightBound := right.toNat_lt
  cases operation with
  | copy => rfl
  | or => exact UInt8.toNat_or left right
  | and => exact UInt8.toNat_and left right
  | xor => exact UInt8.toNat_xor left right
  | add => exact UInt8.toNat_add left right
  | subtract =>
      rw [result, UInt8.toNat_sub, number]
      omega
  | subtractFrom =>
      rw [result, UInt8.toNat_sub, number]
      omega
  | shiftRight => simp [result, number, Nat.shiftRight_eq_div_pow]
  | shiftLeft => simp [result, number, Nat.shiftLeft_eq, Nat.mul_comm]

theorem toNat_toUInt8_decide (fact : Prop) [Decidable fact] :
    (decide fact).toUInt8.toNat = if fact then 1 else 0 := by
  by_cases holds : fact
  · rw [decide_eq_true holds, if_pos holds]
    rfl
  · rw [decide_eq_false holds, if_neg holds]
    rfl

theorem signal?_eq (left right : UInt8) (operation : Arithmetic) :
    operation.signal? left.toNat right.toNat =
      (operation.flag? left right).map fun flag => flag.toUInt8.toNat := by
  have bound := left.toNat_lt
  cases operation with
  | copy | or | and | xor => rfl
  | add => rw [signal?, flag?, Option.map_some, toNat_toUInt8_decide]
  | subtract =>
      rw [signal?, flag?, Option.map_some, toNat_toUInt8_decide]
      rfl
  | subtractFrom =>
      rw [signal?, flag?, Option.map_some, toNat_toUInt8_decide]
      rfl
  | shiftRight =>
      rw [signal?, flag?, Option.map_some, Nat.testBit_zero, toNat_toUInt8_decide]
      refine congrArg some ?_
      split <;> omega
  | shiftLeft =>
      have top : left.toNat / 2 ^ 7 % 2 = 1 ↔ 128 ≤ left.toNat := by omega
      rw [signal?, flag?, Option.map_some, Nat.testBit_eq_decide_div_mod_eq, decide_eq_decide.mpr top,
        toNat_toUInt8_decide]

end Arithmetic

namespace Machine

/-- The result is in VX, unless the carry of a sum has taken its place. -/
theorem result_compute (machine : Machine) {operation : Arithmetic} {x : Register}
    (uncovered : ¬ (operation = .add ∧ x = flagRegister)) (y : Register) :
    (machine.compute operation x y).register x =
      operation.result (machine.register x) (machine.register y) := by
  cases flagged : operation.flag? (machine.register x) (machine.register y) with
  | none =>
      rw [compute, flagged]
      exact register_setRegister_self machine x _
  | some flag =>
      rw [compute, flagged]
      by_cases sum : operation = .add
      · have other : x ≠ flagRegister := fun same => uncovered ⟨sum, same⟩
        simp only [if_pos sum, setFlag]
        rw [register_setRegister_of_ne other, register_setRegister_self]
      · simp only [if_neg sum]
        exact register_setRegister_self _ x _

/-- The flag is in VF, unless the result of anything but a sum has taken its place. -/
theorem flag_compute (machine : Machine) {operation : Arithmetic} {x y : Register} {flag : Bool}
    (flagged : operation.flag? (machine.register x) (machine.register y) = some flag)
    (uncovered : x = flagRegister → operation = .add) :
    (machine.compute operation x y).register flagRegister = flag.toUInt8 := by
  rw [compute, flagged]
  by_cases sum : operation = .add
  · simp only [if_pos sum]
    exact register_setRegister_self _ flagRegister _
  · have other : flagRegister ≠ x := fun same => sum (uncovered same.symm)
    simp only [if_neg sum]
    rw [register_setRegister_of_ne other, setFlag, register_setRegister_self]

/-- What an operation of the arithmetic group leaves in the registers. -/
structure Computes (operation : Arithmetic) (x y : Register) (before after : Machine) :
    Prop where
  result : ¬ (operation = .add ∧ x = flagRegister) →
    (after.register x).toNat =
      operation.number (before.register x).toNat (before.register y).toNat
  signal : ∀ signal,
    operation.signal? (before.register x).toNat (before.register y).toNat = some signal →
      (x = flagRegister → operation = .add) →
        (after.register flagRegister).toNat = signal
  others : ∀ z, z ≠ x → (operation.setsFlag = true → z ≠ flagRegister) →
    after.register z = before.register z

theorem computes_compute (machine : Machine) (operation : Arithmetic) (x y : Register) :
    Computes operation x y machine (machine.compute operation x y) := by
  constructor
  · intro uncovered
    rw [result_compute machine uncovered, Arithmetic.toNat_result]
  · intro signal told uncovered
    rw [Arithmetic.signal?_eq] at told
    obtain ⟨flag, flagged, rfl⟩ := Option.map_eq_some_iff.mp told
    rw [flag_compute machine flagged uncovered]
  · intro z other unflagged
    refine register_compute ?_ machine y
    rintro (same | ⟨sets, same⟩)
    · exact other same
    · exact unflagged sets same

/-- What the addition of a constant leaves in the registers. It has no carry. -/
structure AddsByte (x : Register) (byte : UInt8) (before after : Machine) : Prop where
  sum : (after.register x).toNat = ((before.register x).toNat + byte.toNat) % 256
  others : ∀ z, z ≠ x → after.register z = before.register z

theorem addsByte_setRegister (machine : Machine) (x : Register) (byte : UInt8) :
    AddsByte x byte machine (machine.setRegister x (machine.register x + byte)) := by
  constructor
  · rw [register_setRegister_self, UInt8.toNat_add]
  · intro z other
    exact register_setRegister_of_ne other machine _

/-- Every operation with a flag leaves its result in VX and its flag in VF, both of them for the
numbers that were in VX and VY before, and changes no other register. If VX is the flag itself,
a sum leaves the carry there and every other operation its result. Operations without a flag,
and the addition of a constant, leave VF alone unless it is VX. -/
theorem arithmetic_exact :
    (∀ operation x y, Does (.arithmetic operation x y) (Computes operation x y)) ∧
      ∀ x byte, Does (.addByte x byte) (AddsByte x byte) := by
  constructor
  · intro operation x y
    refine does_of_ready rfl fun before counter delay delaySince now => ?_
    obtain ⟨result, signal, others⟩ :=
      computes_compute { before with counter, delay, delaySince, now } operation x y
    exact ⟨result, signal, others⟩
  · intro x byte
    refine does_of_ready rfl fun before counter delay delaySince now => ?_
    obtain ⟨sum, others⟩ :=
      addsByte_setRegister { before with counter, delay, delaySince, now } x byte
    exact ⟨sum, others⟩

/-- VF is doubled and keeps the carry, and is then taken from another register. -/
theorem arithmetic_exact_on_the_flag :
    let before := ((new (.counter 0 1)).performAll
      [.load [0x6f, 0xc8, 0x61, 0x10, 0x8f, 0xf4, 0x8f, 0x17], .step 0 1, .step 0 1]).2
    let doubled := (before.step 0 1).2
    let taken := (doubled.step 0 1).2
    before.register flagRegister = 200 ∧
      (before.step 0 1).1 = .ok (.arithmetic .add flagRegister flagRegister) ∧
      (doubled.register flagRegister).toNat = 1 ∧
      (doubled.step 0 1).1 = .ok (.arithmetic .subtractFrom flagRegister 1) ∧
      (taken.register flagRegister).toNat = 15 := by
  intro before doubled taken
  obtain ⟨running, word, next, running', large, other⟩ : before.awaiting = none ∧
      before.wordAtCounter = (Instruction.arithmetic .add flagRegister flagRegister).encode ∧
      doubled.wordAtCounter = (Instruction.arithmetic .subtractFrom flagRegister 1).encode ∧
      doubled.awaiting = none ∧ before.register flagRegister = 200 ∧ doubled.register 1 = 16 := by
    decide +kernel
  obtain ⟨add, addObeyed⟩ := arithmetic_exact.1 .add flagRegister flagRegister
  obtain ⟨take, takeObeyed⟩ := arithmetic_exact.1 .subtractFrom flagRegister 1
  have added := addObeyed before 0 1 running word
  have carry : (doubled.register flagRegister).toNat = 1 :=
    (add before doubled (.inStep added)).signal 1 (by rw [large]; rfl) fun _ => rfl
  have subtracted := takeObeyed doubled 0 1 running' next
  refine ⟨large, added, carry, subtracted, ?_⟩
  rw [(take doubled taken (.inStep subtracted)).result (by decide), carry, other]
  rfl

end Machine

end ChipEight
