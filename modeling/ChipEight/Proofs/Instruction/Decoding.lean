import ChipEight.Instruction.Listing
import ChipEight.Proofs.Instruction.Words
import Mathlib.Data.List.Forall2
import Mathlib.Data.Set.Operations

/-!
# Words and instructions

Decoding and encoding are inverse to each other. Nothing of a word that is decoded is lost, also
where execution does not look at it, and the words that are refused are those of no instruction.
-/

set_option autoImplicit false

namespace ChipEight

/-! ## Words from their fields -/

namespace Instruction

theorem addressWord_of_fields {word : UInt16} {group : Nat} (selects : word.toNat / 4096 = group) :
    addressWord group (lowAddress word.toNat) = word := by
  have bound := word.toNat_lt
  apply UInt16.toNat_inj.mp
  rw [addressWord, UInt16.toNat_ofNat', ← selects]
  simp only [lowAddress]
  omega

theorem byteWord_of_fields {word : UInt16} {group : Nat} {byte : UInt8}
    (selects : word.toNat / 4096 = group) (last : word.toNat % 256 = byte.toNat) :
    byteWord group (Text.lastDigit (word.toNat / 256)) byte = word := by
  have bound := word.toNat_lt
  apply UInt16.toNat_inj.mp
  rw [byteWord, UInt16.toNat_ofNat', ← selects, ← last]
  simp only [Text.lastDigit]
  omega

theorem registerWord_of_fields {word : UInt16} {group last : Nat}
    (selects : word.toNat / 4096 = group) (ends : word.toNat % 16 = last) :
    registerWord group (Text.lastDigit (word.toNat / 256)) (Text.lastDigit (word.toNat / 16)) last =
      word := by
  have bound := word.toNat_lt
  apply UInt16.toNat_inj.mp
  rw [registerWord, UInt16.toNat_ofNat', ← selects, ← ends]
  simp only [Text.lastDigit]
  omega

theorem selector_of_ofSelector? {selector : Nat} {operation : Arithmetic}
    (selected : Arithmetic.ofSelector? selector = some operation) :
    operation.selector = selector := by
  unfold Arithmetic.ofSelector? at selected
  split at selected
  all_goals cases selected
  all_goals rfl

theorem encode_of_ofMiscellaneous? {word : UInt16} {instruction : Instruction}
    (selects : word.toNat / 4096 = 0xf)
    (decoded : ofMiscellaneous? (Text.lastDigit (word.toNat / 256)) (word.toNat % 256) =
      some instruction) : instruction.encode = word := by
  unfold ofMiscellaneous? at decoded
  split at decoded
  all_goals cases decoded
  all_goals rename_i last
  all_goals exact byteWord_of_fields selects last

theorem encode_of_decode? {word : UInt16} {instruction : Instruction}
    (decoded : decode? word = some instruction) : instruction.encode = word := by
  have low : word.toNat % 256 = (UInt8.ofNat word.toNat).toNat := UInt8.toNat_ofNat'.symm
  unfold decode? at decoded
  dsimp only at decoded
  split at decoded
  case h_1 group =>
      split at decoded
      case h_1 whole =>
          cases decoded
          exact UInt16.toNat_inj.mp whole.symm
      case h_2 whole =>
          cases decoded
          exact UInt16.toNat_inj.mp whole.symm
      case h_3 => cases decoded
  case h_2 group | h_3 group | h_11 group | h_12 group =>
      cases decoded
      exact addressWord_of_fields group
  case h_4 group | h_5 group | h_7 group | h_8 group | h_13 group =>
      cases decoded
      exact byteWord_of_fields group low
  case h_6 group | h_10 group =>
      split at decoded
      case isTrue last =>
          cases decoded
          exact registerWord_of_fields group last
      case isFalse other => cases decoded
  case h_9 group =>
      obtain ⟨operation, selected, rfl⟩ := Option.map_eq_some_iff.mp decoded
      exact registerWord_of_fields group (selector_of_ofSelector? selected).symm
  case h_14 group =>
      cases decoded
      exact registerWord_of_fields group rfl
  case h_15 group =>
      split at decoded
      case h_1 last =>
          cases decoded
          exact byteWord_of_fields group last
      case h_2 last =>
          cases decoded
          exact byteWord_of_fields group last
      case h_3 => cases decoded
  case h_16 =>
      -- No other group is left for the last case of the match.
      have bound := word.toNat_lt
      have group : word.toNat / 4096 = 0xf := by grind
      exact encode_of_ofMiscellaneous? group decoded

theorem encode_of_decode {word : UInt16} {instruction : Instruction}
    (decoded : decode word = .ok instruction) : instruction.encode = word :=
  encode_of_decode? (decode_eq_ok_iff.mp decoded)

theorem decode?_eq_some_iff {word : UInt16} {instruction : Instruction} :
    decode? word = some instruction ↔ instruction.encode = word :=
  ⟨encode_of_decode?, fun encoded => encoded ▸ decode?_encode instruction⟩

theorem decode?_eq_none_iff {word : UInt16} : decode? word = none ↔ word ∉ Set.range encode := by
  rw [Option.eq_none_iff_forall_ne_some, Set.mem_range, not_exists]
  exact forall_congr' fun instruction => not_congr decode?_eq_some_iff

/-! ## The instruction table -/

/-- How many values each operand of an instruction may have, in the order of its listing: a
register and the height of a sprite have a digit, a byte has two, and an address has three. -/
def operandSizes : Instruction → List Nat
  | .clearScreen | .ret => []
  | .jump _ | .call _ | .setIndex _ | .jumpOffset _ => [4096]
  | .skip (.equalByte _ _) | .skip (.unequalByte _ _) => [16, 256]
  | .setByte _ _ | .addByte _ _ | .random _ _ => [16, 256]
  | .skip (.equal _ _) | .skip (.unequal _ _) | .arithmetic _ _ _ => [16, 16]
  | .draw _ _ _ => [16, 16, 16]
  | .skip (.pressed _) | .skip (.released _) => [16]
  | .readDelay _ | .awaitKey _ | .setDelay _ | .setSound _ | .addIndex _ | .glyph _ => [16]
  | .storeDecimal _ | .storeRegisters _ | .loadRegisters _ => [16]

theorem operands_lt_sizes (instruction : Instruction) :
    List.Forall₂ (· < ·) instruction.listingParts.2 instruction.operandSizes := by
  have byteSize (byte : UInt8) : byte.toNat < 256 := byte.toNat_lt
  cases instruction with
  | skip condition =>
      cases condition with
      | _ => simp [listingParts, Condition.listingParts, operandSizes, byteSize]
  | _ => simp [listingParts, operandSizes, byteSize]

/-- Decoding accepts the words of the instructions and no others, and gives back the instruction
of each with all its operands; what it refuses, it names. -/
theorem decode_inverts_encode :
    (∀ instruction, decode instruction.encode = .ok instruction) ∧
    (∀ word instruction, decode word = .ok instruction →
      List.Forall₂ (· < ·) instruction.listingParts.2 instruction.operandSizes ∧
        instruction.encode = word) ∧
    (∀ word fault, decode word = .error fault ↔
      fault = .unsupportedWord word ∧ word ∉ Set.range encode) ∧
    (∀ first second instruction, decode first = .ok instruction →
      decode second = .ok instruction → first = second) := by
  refine ⟨?_, ?_, ?_, ?_⟩
  · intro instruction
    exact decode_eq_ok_iff.mpr (decode?_encode instruction)
  · intro word instruction decoded
    exact ⟨operands_lt_sizes instruction, encode_of_decode decoded⟩
  · intro word fault
    rw [← decode?_eq_none_iff]
    constructor
    · intro refused
      cases found : decode? word with
      | none => exact ⟨decode_error refused, rfl⟩
      | some instruction => cases refused.symm.trans (decode_eq_ok_iff.mpr found)
    · rintro ⟨rfl, unknown⟩
      exact decode_eq_error unknown
  · intro first second instruction ofFirst ofSecond
    exact (encode_of_decode ofFirst).symm.trans (encode_of_decode ofSecond)

/-- A shift keeps the register that it does not look at; with another last digit it is refused. -/
theorem decode_inverts_encode_shift :
    decode 0x8ab6 = .ok (.arithmetic .shiftRight 0xa 0xb) ∧
      encode (.arithmetic .shiftRight 0xa 0xb) = 0x8ab6 ∧
      decode 0x8ab8 = .error (.unsupportedWord 0x8ab8) ∧ 0x8ab8 ∉ Set.range encode := by
  obtain ⟨-, back, refuses, -⟩ := decode_inverts_encode
  have decoded : decode 0x8ab6 = .ok (.arithmetic .shiftRight 0xa 0xb) := rfl
  have refused : decode 0x8ab8 = .error (.unsupportedWord 0x8ab8) := rfl
  exact ⟨decoded, (back _ _ decoded).2, refused, ((refuses _ _).mp refused).2⟩

end Instruction

end ChipEight
