import ChipEight.Instruction.Decode
import ChipEight.Instruction.Encode

/-!
# Words of instructions

Decoding takes the word of an instruction apart into the fields that it was made of, so every
instruction is got back from its word.
-/

set_option autoImplicit false

namespace ChipEight

namespace Instruction

theorem decode_eq_ok_iff {word : UInt16} {instruction : Instruction} :
    decode word = .ok instruction ↔ decode? word = some instruction := by
  unfold decode
  cases decode? word with
  | none => simp
  | some found => simp

theorem decode_eq_error {word : UInt16} (unknown : decode? word = none) :
    decode word = .error (.unsupportedWord word) := by
  rw [decode, unknown]

theorem decode_error {word : UInt16} {fault : Fault} (refused : decode word = .error fault) :
    fault = .unsupportedWord word := by
  unfold decode at refused
  split at refused
  · cases refused
  · cases refused; rfl

theorem fields_addressWord {group : Nat} (small : group < 16) (target : Address) :
    (addressWord group target).toNat / 4096 = group ∧
      lowAddress (addressWord group target).toNat = target := by
  have value : (addressWord group target).toNat = group * 4096 + target.val := by
    rw [addressWord, UInt16.toNat_ofNat']
    omega
  rw [value]
  refine ⟨by omega, Fin.ext ?_⟩
  simp only [lowAddress]
  omega

theorem fields_byteWord {group : Nat} (small : group < 16) (x : Register) (byte : UInt8) :
    (byteWord group x byte).toNat / 4096 = group ∧
      Text.lastDigit ((byteWord group x byte).toNat / 256) = x ∧
      UInt8.ofNat (byteWord group x byte).toNat = byte ∧
      (byteWord group x byte).toNat % 256 = byte.toNat := by
  have bound := byte.toNat_lt
  have value : (byteWord group x byte).toNat = group * 4096 + x.val * 256 + byte.toNat := by
    rw [byteWord, UInt16.toNat_ofNat']
    omega
  rw [value]
  refine ⟨by omega, Fin.ext ?_, UInt8.toNat_inj.mp ?_, by omega⟩
  · simp only [Text.lastDigit]
    omega
  · rw [UInt8.toNat_ofNat']
    omega

theorem fields_registerWord {group last : Nat} (small : group < 16) (digit : last < 16)
    (x y : Register) :
    (registerWord group x y last).toNat / 4096 = group ∧
      Text.lastDigit ((registerWord group x y last).toNat / 256) = x ∧
      Text.lastDigit ((registerWord group x y last).toNat / 16) = y ∧
      (registerWord group x y last).toNat % 16 = last := by
  have value : (registerWord group x y last).toNat =
      group * 4096 + x.val * 256 + y.val * 16 + last := by
    rw [registerWord, UInt16.toNat_ofNat']
    omega
  rw [value]
  refine ⟨by omega, Fin.ext ?_, Fin.ext ?_, by omega⟩
  · simp only [Text.lastDigit]
    omega
  · simp only [Text.lastDigit]
    omega

theorem ofSelector?_selector (operation : Arithmetic) :
    Arithmetic.ofSelector? operation.selector = some operation := by
  cases operation <;> rfl

theorem selector_lt (operation : Arithmetic) : operation.selector < 16 := by
  cases operation <;> decide

/-- The word of an instruction is decoded to that instruction. -/
theorem decode?_encode (instruction : Instruction) :
    decode? instruction.encode = some instruction := by
  cases instruction with
  | clearScreen | ret => rfl
  | jump target | call target | setIndex target | jumpOffset target =>
      simp (disch := decide) only [encode, decode?, fields_addressWord]
  | setByte x byte | addByte x byte | random x byte =>
      simp (disch := decide) only [encode, decode?, fields_byteWord]
  | arithmetic operation x y =>
      have digit := selector_lt operation
      simp (disch := omega) only [encode, decode?, fields_registerWord,
        ofSelector?_selector, Option.map_some]
  | draw x y rows =>
      have digit := rows.isLt
      have last : Text.lastDigit (registerWord 0xd x y rows.val).toNat = rows :=
        Fin.ext (fields_registerWord (by decide) digit x y).2.2.2
      simp (disch := omega) only [encode, decode?, fields_registerWord, last]
  | skip condition =>
      cases condition with
      | equalByte x byte | unequalByte x byte =>
          simp (disch := decide) only [encode, skipWord, decode?, fields_byteWord]
      | equal x y | unequal x y =>
          simp (disch := decide) only [encode, skipWord, decode?, fields_registerWord, if_true]
      | pressed x | released x =>
          simp (disch := decide) only [encode, skipWord, decode?, fields_byteWord]
          rfl
  | readDelay x | awaitKey x | setDelay x | setSound x | addIndex x | glyph x | storeDecimal x
    | storeRegisters x | loadRegisters x =>
      simp (disch := decide) only [encode, decode?, fields_byteWord]
      rfl

end Instruction

end ChipEight
