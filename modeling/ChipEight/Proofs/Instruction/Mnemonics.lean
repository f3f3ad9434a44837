import ChipEight.Instruction.Mnemonic
import Mathlib.Algebra.Group.Nat.Defs
import Mathlib.Data.List.TakeWhile

/-!
# Reading mnemonics back

A mnemonic is a name, a blank and the texts of the operands. The name has no blank, and the text of
an operand has no comma, so the text falls apart where it was put together, and each part can be
read on its own.
-/

set_option autoImplicit false

namespace ChipEight

/-! ## Digits -/

theorem lowAddress_val (target : Address) : lowAddress target.val = target :=
  Fin.ext (Nat.mod_eq_of_lt target.isLt)

namespace Text

theorem lastDigit_val (value : Fin 16) : lastDigit value.val = value :=
  Fin.ext (Nat.mod_eq_of_lt value.isLt)

theorem hexValue?_lowerHexDigit (value : Fin 16) : hexValue? (lowerHexDigit value) = some value := by
  revert value
  decide

theorem hexValue?_upperHexDigit (value : Fin 16) : hexValue? (upperHexDigit value) = some value := by
  revert value
  decide

/-- Of a number that is written with too few digits, the low ones are read back. -/
theorem hexNumber?_hexDigits (width number : Nat) :
    hexNumber? (hexDigits width number) = some (number % 16 ^ width) := by
  induction width generalizing number with
  | zero => rw [Nat.pow_zero, Nat.mod_one]; rfl
  | succ width ih =>
      have high : hexNumber? (hexDigits width (number / 16)) = some (number / 16 % 16 ^ width) :=
        ih (number / 16)
      have low : (Text.lastDigit number).val = number % 16 := rfl
      unfold hexNumber? at high ⊢
      rw [hexDigits, List.foldlM_append, high]
      simp only [List.foldlM_cons, List.foldlM_nil, hexValue?_lowerHexDigit, low, Option.map_some,
        Option.bind_eq_bind, Option.bind_some, Option.pure_def, Option.some.injEq]
      rw [Nat.pow_succ', Nat.mod_mul]
      omega

theorem mem_hexDigits {width number : Nat} {digit : Char} (among : digit ∈ hexDigits width number) :
    ∃ value, digit = lowerHexDigit value := by
  induction width generalizing number with
  | zero => cases among
  | succ width ih =>
      rcases List.mem_append.mp among with high | low
      · exact ih high
      · exact ⟨_, List.mem_singleton.mp low⟩

theorem comma_not_mem_hexDigits (width number : Nat) : ',' ∉ hexDigits width number := by
  intro among
  obtain ⟨value, same⟩ := mem_hexDigits among
  revert value
  decide

end Text

/-! ## Operands -/

namespace Operand

theorem ofText?_text (operand : Operand) : ofText? operand.text.toList = some operand := by
  cases operand with
  | register x =>
      have read : ofText? ['V', Text.upperHexDigit x] =
        (Text.hexValue? (Text.upperHexDigit x)).map .register := rfl
      rw [text, String.toList_ofList, read, Text.hexValue?_upperHexDigit, Option.map_some]
  | byte value =>
      have read : ofText? ('0' :: 'x' :: Text.hexDigits 2 value.toNat) =
        (Text.hexNumber? (Text.hexDigits 2 value.toNat)).map fun number =>
          .byte (UInt8.ofNat number) := rfl
      have small : value.toNat % 16 ^ 2 = value.toNat := Nat.mod_eq_of_lt value.toNat_lt
      rw [text, Text.hexLiteral, String.toList_ofList, read, Text.hexNumber?_hexDigits, small,
        Option.map_some, UInt8.ofNat_toNat]
  | address target =>
      have read : ofText? ('0' :: 'x' :: Text.hexDigits 3 target.val) =
        (Text.hexNumber? (Text.hexDigits 3 target.val)).map fun number =>
          .address (lowAddress number) := rfl
      have small : target.val % 16 ^ 3 = target.val := Nat.mod_eq_of_lt target.isLt
      rw [text, Text.hexLiteral, String.toList_ofList, read, Text.hexNumber?_hexDigits, small,
        Option.map_some, lowAddress_val]
  | rows count =>
      revert count
      decide +kernel
  | _ => rfl

theorem comma_not_mem_text (operand : Operand) : ',' ∉ operand.text.toList := by
  cases operand with
  | register x =>
      revert x
      decide +kernel
  | byte value =>
      have digits := Text.comma_not_mem_hexDigits 2 value.toNat
      simp [text, Text.hexLiteral, digits]
  | address target =>
      have digits := Text.comma_not_mem_hexDigits 3 target.val
      simp [text, Text.hexLiteral, digits]
  | rows count =>
      revert count
      decide +kernel
  | _ => decide

theorem mapM_ofText?_text (operands : List Operand) :
    (operands.map fun operand => operand.text.toList).mapM ofText? = some operands := by
  induction operands with
  | nil => rfl
  | cons operand later ih => simp [ofText?_text, ih]

end Operand

/-! ## Texts put together -/

namespace Instruction

theorem operandTexts_of_plain {text : List Char} (plain : ',' ∉ text) :
    operandTexts text = [text] := by
  induction text with
  | nil => rfl
  | cons character rest ih =>
      rw [List.mem_cons, not_or] at plain
      obtain ⟨other, plain⟩ := plain
      have noComma : ∀ later, character = ',' → rest = ' ' :: later → False :=
        fun _ same _ => other same.symm
      rw [operandTexts, ih plain]
      exact noComma

theorem operandTexts_append {text : List Char} (plain : ',' ∉ text) (rest : List Char) :
    operandTexts (text ++ ',' :: ' ' :: rest) = text :: operandTexts rest := by
  induction text with
  | nil => rfl
  | cons character text ih =>
      rw [List.mem_cons, not_or] at plain
      obtain ⟨other, plain⟩ := plain
      rw [List.cons_append, operandTexts, ih plain]
      exact fun _ same _ => other same.symm

/-- Texts without a comma are found again where they were put together. -/
theorem operandTexts_intercalate {Item : Type} {write : Item → List Char}
    (plain : ∀ item, ',' ∉ write item) {items : List Item} (nonempty : items ≠ []) :
    operandTexts ([',', ' '].intercalate (items.map write)) = items.map write := by
  induction items with
  | nil => exact absurd rfl nonempty
  | cons item later ih =>
      cases later with
      | nil =>
          rw [List.map_singleton, List.intercalate_singleton, operandTexts_of_plain (plain item)]
      | cons next later =>
          have rest := ih (List.cons_ne_nil next later)
          rw [List.map_cons, List.map_cons, List.intercalate_cons_cons, List.append_assoc]
          exact (operandTexts_append (plain item) _).trans (congrArg (write item :: ·) rest)

theorem takeWhile_of_plain {name : List Char} {mark : Char} (plain : mark ∉ name) :
    name.takeWhile (· != mark) = name :=
  List.takeWhile_eq_self_iff.mpr fun _ among => bne_iff_ne.mpr (ne_of_mem_of_not_mem among plain)

theorem dropWhile_of_plain {name : List Char} {mark : Char} (plain : mark ∉ name) :
    name.dropWhile (· != mark) = [] :=
  List.dropWhile_eq_nil_iff.mpr fun _ among => bne_iff_ne.mpr (ne_of_mem_of_not_mem among plain)

theorem takeWhile_append_mark {name : List Char} {mark : Char} (plain : mark ∉ name)
    (rest : List Char) : (name ++ mark :: rest).takeWhile (· != mark) = name := by
  rw [List.takeWhile_append_of_pos]
  · simp
  · intro character among
    exact bne_iff_ne.mpr (ne_of_mem_of_not_mem among plain)

theorem dropWhile_append_mark {name : List Char} {mark : Char} (plain : mark ∉ name)
    (rest : List Char) : (name ++ mark :: rest).dropWhile (· != mark) = mark :: rest := by
  rw [List.dropWhile_append_of_pos]
  · simp
  · intro character among
    exact bne_iff_ne.mpr (ne_of_mem_of_not_mem among plain)

/-! ## Mnemonics -/

theorem ofAssembly?_assembly (instruction : Instruction) :
    ofAssembly? instruction.assembly.1 instruction.assembly.2 = some instruction := by
  cases instruction with
  | skip condition =>
      cases condition with
      | _ => rfl
  | arithmetic operation x y =>
      cases operation with
      | _ => rfl
  | _ => rfl

theorem blank_not_mem_name (instruction : Instruction) :
    ' ' ∉ instruction.assembly.1.toList := by
  cases instruction with
  | skip condition =>
      cases condition with
      | _ => simp [assembly, Condition.assembly]
  | arithmetic operation x y =>
      cases operation with
      | _ => simp [assembly, Arithmetic.name]
  | _ => simp [assembly]

/-- The instruction that a mnemonic was written for can be read off it. -/
theorem ofMnemonic?_mnemonic (instruction : Instruction) :
    ofMnemonic? instruction.mnemonic = some instruction := by
  have read := ofAssembly?_assembly instruction
  have plain := blank_not_mem_name instruction
  rw [mnemonic]
  rcases parts : instruction.assembly with ⟨name, operands⟩
  rw [parts] at read plain
  cases operands with
  | nil =>
      rw [ofMnemonic?, takeWhile_of_plain plain, dropWhile_of_plain plain, String.ofList_toList]
      exact read
  | cons operand later =>
      have text : (name ++ " " ++ ", ".intercalate ((operand :: later).map Operand.text)).toList =
          name.toList ++ ' ' :: [',', ' '].intercalate
            ((operand :: later).map fun operand => operand.text.toList) := by
        simp [String.toList_append, String.toList_intercalate, Function.comp_def]
      have split := operandTexts_intercalate Operand.comma_not_mem_text
        (List.cons_ne_nil operand later)
      rw [ofMnemonic?, text, takeWhile_append_mark plain, dropWhile_append_mark plain,
        String.ofList_toList]
      dsimp only
      rw [split, Operand.mapM_ofText?_text]
      exact read

end Instruction

end ChipEight
