import ChipEight.Proofs.Instruction.Decoding
import ChipEight.Proofs.Instruction.Mnemonics

/-!
# Reading listings back

A listing is a name with the operands as decimal numbers in brackets, so it can be read back as a
mnemonic can. Both tell every decodable word from every other.
-/

set_option autoImplicit false

namespace ChipEight

namespace Instruction

/-! ## Names and numbers -/

/-- The instruction that has a name and operands in a listing. -/
def ofListingParts? (name : String) (operands : List Nat) : Option Instruction :=
  match operands with
  | [] =>
    match name with
    | "ClearScreen" => some .clearScreen
    | "Return" => some .ret
    | _ => none
  | [operand] =>
    let x := Text.lastDigit operand
    let target := lowAddress operand
    match name with
    | "Jump" => some (.jump target)
    | "Call" => some (.call target)
    | "SkipIfKey" => some (.skip (.pressed x))
    | "SkipIfNotKey" => some (.skip (.released x))
    | "SetIndex" => some (.setIndex target)
    | "JumpOffset" => some (.jumpOffset target)
    | "GetDelay" => some (.readDelay x)
    | "WaitKey" => some (.awaitKey x)
    | "SetDelay" => some (.setDelay x)
    | "SetSound" => some (.setSound x)
    | "AddIndex" => some (.addIndex x)
    | "FontGlyph" => some (.glyph x)
    | "StoreBcd" => some (.storeDecimal x)
    | "StoreRegs" => some (.storeRegisters x)
    | "LoadRegs" => some (.loadRegisters x)
    | _ => none
  | [first, second] =>
    let x := Text.lastDigit first
    let y := Text.lastDigit second
    let byte := UInt8.ofNat second
    match name with
    | "SkipIfEqConst" => some (.skip (.equalByte x byte))
    | "SkipIfNeConst" => some (.skip (.unequalByte x byte))
    | "SkipIfEqReg" => some (.skip (.equal x y))
    | "SkipIfNeReg" => some (.skip (.unequal x y))
    | "SetConst" => some (.setByte x byte)
    | "AddConst" => some (.addByte x byte)
    | "Copy" => some (.arithmetic .copy x y)
    | "Or" => some (.arithmetic .or x y)
    | "And" => some (.arithmetic .and x y)
    | "Xor" => some (.arithmetic .xor x y)
    | "AddReg" => some (.arithmetic .add x y)
    | "SubReg" => some (.arithmetic .subtract x y)
    | "ShiftRight" => some (.arithmetic .shiftRight x y)
    | "SubNegReg" => some (.arithmetic .subtractFrom x y)
    | "ShiftLeft" => some (.arithmetic .shiftLeft x y)
    | "Random" => some (.random x byte)
    | _ => none
  | [first, second, third] =>
    if name = "Draw" then
      some (.draw (Text.lastDigit first) (Text.lastDigit second) (Text.lastDigit third))
    else none
  | _ => none

theorem ofListingParts?_listingParts (instruction : Instruction) :
    ofListingParts? instruction.listingParts.1 instruction.listingParts.2 = some instruction := by
  cases instruction with
  | skip condition =>
      cases condition with
      | _ => simp [ofListingParts?, listingParts, Condition.listingParts, Text.lastDigit_val]
  | arithmetic operation x y =>
      cases operation with
      | _ => simp [ofListingParts?, listingParts, Arithmetic.listingName, Text.lastDigit_val]
  | _ => simp [ofListingParts?, listingParts, Text.lastDigit_val, lowAddress_val]

theorem bracket_not_mem_listingName (instruction : Instruction) :
    '(' ∉ instruction.listingParts.1.toList := by
  cases instruction with
  | skip condition =>
      cases condition with
      | _ => simp [listingParts, Condition.listingParts]
  | arithmetic operation x y =>
      cases operation with
      | _ => simp [listingParts, Arithmetic.listingName]
  | _ => simp [listingParts]

/-! ## Listings -/

/-- Reads a listing; what stands in its brackets is taken for decimal numbers. -/
def ofListing? (text : String) : Option Instruction :=
  let name := String.ofList (text.toList.takeWhile (· != '('))
  match text.toList.dropWhile (· != '(') with
  | [] => ofListingParts? name []
  | _ :: operands =>
    ofListingParts? name
      ((operandTexts operands.dropLast).map fun digits => Nat.ofDigitChars 10 digits 0)

theorem comma_not_mem_toDigits (number : Nat) : ',' ∉ Nat.toDigits 10 number := by
  intro among
  have digit := Nat.isDigit_of_mem_toDigits (by decide) (by decide) among
  exact absurd digit (by decide)

/-- The instruction that a listing was written for can be read off it. -/
theorem ofListing?_listing (instruction : Instruction) :
    ofListing? instruction.listing = some instruction := by
  have read := ofListingParts?_listingParts instruction
  have plain := bracket_not_mem_listingName instruction
  rw [listing]
  rcases parts : instruction.listingParts with ⟨name, operands⟩
  rw [parts] at read plain
  cases operands with
  | nil =>
      rw [ofListing?, takeWhile_of_plain plain, dropWhile_of_plain plain, String.ofList_toList]
      exact read
  | cons operand later =>
      have text : (name ++ "(" ++ ", ".intercalate ((operand :: later).map toString) ++ ")").toList =
          name.toList ++ '(' ::
            ([',', ' '].intercalate ((operand :: later).map (Nat.toDigits 10)) ++ [')']) := by
        simp [String.toList_append, String.toList_intercalate, Function.comp_def]
      have split := operandTexts_intercalate comma_not_mem_toDigits
        (List.cons_ne_nil operand later)
      have numbers : ((operand :: later).map (Nat.toDigits 10)).map
          (fun digits => Nat.ofDigitChars 10 digits 0) = operand :: later := by
        rw [List.map_map]
        exact List.map_id'' (fun number => Nat.ofDigitChars_ten_toDigits) _
      rw [ofListing?, text, takeWhile_append_mark plain, dropWhile_append_mark plain,
        String.ofList_toList]
      dsimp only
      rw [List.dropLast_concat, split, numbers]
      exact read

/-! ## Words -/

theorem mnemonic_injective : Function.Injective mnemonic := by
  intro one other same
  have read := ofMnemonic?_mnemonic one
  rw [same, ofMnemonic?_mnemonic other] at read
  exact (Option.some.inj read).symm

theorem listing_injective : Function.Injective listing := by
  intro one other same
  have read := ofListing?_listing one
  rw [same, ofListing?_listing other] at read
  exact (Option.some.inj read).symm

/-- Words that decode to instructions of one text are equal, in either form of text, and an
instruction that a word decodes to is read back from both of its texts. -/
theorem texts_unambiguous :
    (∀ first second one other, decode first = .ok one → decode second = .ok other →
      (one.mnemonic = other.mnemonic → first = second) ∧
        (one.listing = other.listing → first = second)) ∧
    (∀ word instruction, decode word = .ok instruction →
      ofMnemonic? instruction.mnemonic = some instruction ∧
        ofListing? instruction.listing = some instruction) := by
  constructor
  · intro first second one other ofFirst ofSecond
    rw [← encode_of_decode ofFirst, ← encode_of_decode ofSecond]
    constructor
    · intro same
      exact congrArg encode (mnemonic_injective same)
    · intro same
      exact congrArg encode (listing_injective same)
  · intro word instruction _
    exact ⟨ofMnemonic?_mnemonic instruction, ofListing?_listing instruction⟩

/-- Two of the instructions that put something into VA: their mnemonics share the name and the first
operand. -/
theorem texts_unambiguous_load :
    let loadByte := setByte 0xa 0x3c
    let loadIndirect := loadRegisters 0xa
    decode 0x6a3c = .ok loadByte ∧ loadByte.encode = 0x6a3c ∧
      decode 0xfa65 = .ok loadIndirect ∧ loadByte.mnemonic ≠ loadIndirect.mnemonic ∧
      ofMnemonic? "LD VA, 0x3c" = some loadByte ∧
      ofListing? "SetConst(10, 60)" = some loadByte := by
  intro loadByte loadIndirect
  obtain ⟨tellsApart, readsBack⟩ := texts_unambiguous
  have decoded : decode 0x6a3c = .ok loadByte := rfl
  have decodedIndirect : decode 0xfa65 = .ok loadIndirect := rfl
  have decodedAgain : decode loadByte.encode = .ok loadByte :=
    decode_eq_ok_iff.mpr (decode?_encode loadByte)
  have sameWord : loadByte.encode = 0x6a3c :=
    (tellsApart _ _ _ _ decodedAgain decoded).1 rfl
  have apart : loadByte.mnemonic ≠ loadIndirect.mnemonic := fun same =>
    absurd ((tellsApart _ _ _ _ decoded decodedIndirect).1 same) (by decide)
  exact ⟨decoded, sameWord, decodedIndirect, apart, readsBack _ _ decoded⟩

end Instruction

end ChipEight
