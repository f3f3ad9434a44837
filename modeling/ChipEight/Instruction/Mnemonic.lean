import ChipEight.Instruction.Basic
import ChipEight.Text.Hexadecimal

/-!
# Mnemonics

The assembly text of an instruction, such as `LD VA, 0x3c`: the name of the
operation, then the operands with a comma and a blank between them. The text can
be read back: `ofMnemonic?` finds the instruction that a text was written for.
-/

set_option autoImplicit false

namespace ChipEight

/-- An operand as assembly text shows it. -/
inductive Operand where
  /-- V and one upper-case hexadecimal digit. -/
  | register (x : Register)
  /-- Two hexadecimal digits. -/
  | byte (value : UInt8)
  /-- Three hexadecimal digits. -/
  | address (target : Address)
  /-- The height of a sprite, in decimal. -/
  | rows (count : Fin 16)
  | index
  /-- The memory that the address register points at. -/
  | indirect
  | delayTimer
  | soundTimer
  | key
  | font
  /-- The decimal digits of a byte. -/
  | decimal
deriving DecidableEq, Repr

namespace Operand

def text : Operand → String
  | .register x => String.ofList ['V', Text.upperHexDigit x]
  | .byte value => Text.hexLiteral 2 value.toNat
  | .address target => Text.hexLiteral 3 target.val
  | .rows count => toString count.val
  | .index => "I"
  | .indirect => "[I]"
  | .delayTimer => "DT"
  | .soundTimer => "ST"
  | .key => "K"
  | .font => "F"
  | .decimal => "B"

def ofText? (text : List Char) : Option Operand :=
  match text with
  | ['I'] => some .index
  | ['[', 'I', ']'] => some .indirect
  | ['D', 'T'] => some .delayTimer
  | ['S', 'T'] => some .soundTimer
  | ['K'] => some .key
  | ['F'] => some .font
  | ['B'] => some .decimal
  | ['V', digit] => (Text.hexValue? digit).map .register
  | ['0', 'x', high, low] =>
    (Text.hexNumber? [high, low]).map fun value => .byte (UInt8.ofNat value)
  | ['0', 'x', high, middle, low] =>
    (Text.hexNumber? [high, middle, low]).map fun value => .address (lowAddress value)
  | digits =>
    (List.finRange 16).find? (fun count => (toString count.val).toList == digits)
      |>.map .rows

end Operand

namespace Arithmetic

def name : Arithmetic → String
  | .copy => "LD"
  | .or => "OR"
  | .and => "AND"
  | .xor => "XOR"
  | .add => "ADD"
  | .subtract => "SUB"
  | .shiftRight => "SHR"
  | .subtractFrom => "SUBN"
  | .shiftLeft => "SHL"

end Arithmetic

namespace Condition

def assembly : Condition → String × List Operand
  | .equalByte x byte => ("SE", [.register x, .byte byte])
  | .unequalByte x byte => ("SNE", [.register x, .byte byte])
  | .equal x y => ("SE", [.register x, .register y])
  | .unequal x y => ("SNE", [.register x, .register y])
  | .pressed x => ("SKP", [.register x])
  | .released x => ("SKNP", [.register x])

end Condition

namespace Instruction

/-- The name and the operands of an instruction. -/
def assembly : Instruction → String × List Operand
  | .clearScreen => ("CLS", [])
  | .ret => ("RET", [])
  | .jump target => ("JP", [.address target])
  | .call target => ("CALL", [.address target])
  | .skip condition => condition.assembly
  | .setByte x byte => ("LD", [.register x, .byte byte])
  | .addByte x byte => ("ADD", [.register x, .byte byte])
  | .arithmetic operation x y => (operation.name, [.register x, .register y])
  | .setIndex target => ("LD", [.index, .address target])
  | .jumpOffset target => ("JP", [.register offsetRegister, .address target])
  | .random x mask => ("RND", [.register x, .byte mask])
  | .draw x y rows => ("DRW", [.register x, .register y, .rows rows])
  | .readDelay x => ("LD", [.register x, .delayTimer])
  | .awaitKey x => ("LD", [.register x, .key])
  | .setDelay x => ("LD", [.delayTimer, .register x])
  | .setSound x => ("LD", [.soundTimer, .register x])
  | .addIndex x => ("ADD", [.index, .register x])
  | .glyph x => ("LD", [.font, .register x])
  | .storeDecimal x => ("LD", [.decimal, .register x])
  | .storeRegisters x => ("LD", [.indirect, .register x])
  | .loadRegisters x => ("LD", [.register x, .indirect])

def mnemonic (instruction : Instruction) : String :=
  match instruction.assembly with
  | (name, []) => name
  | (name, operands) => name ++ " " ++ ", ".intercalate (operands.map Operand.text)

example : (setByte ⟨0xa, by decide⟩ 0x3c).mnemonic = "LD VA, 0x3c" := by rfl

def ofAssembly? (name : String) (operands : List Operand) : Option Instruction :=
  match operands with
  | [] =>
    match name with
    | "CLS" => some .clearScreen
    | "RET" => some .ret
    | _ => none
  | [.address target] =>
    match name with
    | "JP" => some (.jump target)
    | "CALL" => some (.call target)
    | _ => none
  | [.register x] =>
    match name with
    | "SKP" => some (.skip (.pressed x))
    | "SKNP" => some (.skip (.released x))
    | _ => none
  | [.register x, .byte byte] =>
    match name with
    | "SE" => some (.skip (.equalByte x byte))
    | "SNE" => some (.skip (.unequalByte x byte))
    | "LD" => some (.setByte x byte)
    | "ADD" => some (.addByte x byte)
    | "RND" => some (.random x byte)
    | _ => none
  | [.register x, .register y] =>
    match name with
    | "SE" => some (.skip (.equal x y))
    | "SNE" => some (.skip (.unequal x y))
    | "LD" => some (.arithmetic .copy x y)
    | "OR" => some (.arithmetic .or x y)
    | "AND" => some (.arithmetic .and x y)
    | "XOR" => some (.arithmetic .xor x y)
    | "ADD" => some (.arithmetic .add x y)
    | "SUB" => some (.arithmetic .subtract x y)
    | "SHR" => some (.arithmetic .shiftRight x y)
    | "SUBN" => some (.arithmetic .subtractFrom x y)
    | "SHL" => some (.arithmetic .shiftLeft x y)
    | _ => none
  | [.register x, .address target] =>
    if name = "JP" ∧ x = offsetRegister then some (.jumpOffset target) else none
  | [.register x, .register y, .rows rows] =>
    if name = "DRW" then some (.draw x y rows) else none
  | [.index, .address target] => if name = "LD" then some (.setIndex target) else none
  | [.index, .register x] => if name = "ADD" then some (.addIndex x) else none
  | [.register x, .delayTimer] => if name = "LD" then some (.readDelay x) else none
  | [.register x, .key] => if name = "LD" then some (.awaitKey x) else none
  | [.delayTimer, .register x] => if name = "LD" then some (.setDelay x) else none
  | [.soundTimer, .register x] => if name = "LD" then some (.setSound x) else none
  | [.font, .register x] => if name = "LD" then some (.glyph x) else none
  | [.decimal, .register x] => if name = "LD" then some (.storeDecimal x) else none
  | [.indirect, .register x] => if name = "LD" then some (.storeRegisters x) else none
  | [.register x, .indirect] => if name = "LD" then some (.loadRegisters x) else none
  | _ => none

/-- The operand texts of a list that has a comma and a blank between them. -/
def operandTexts : List Char → List (List Char)
  | [] => [[]]
  | ',' :: ' ' :: rest => [] :: operandTexts rest
  | character :: rest =>
    match operandTexts rest with
    | [] => [[character]]
    | first :: others => (character :: first) :: others

def ofMnemonic? (text : String) : Option Instruction :=
  let name := String.ofList (text.toList.takeWhile (· != ' '))
  match text.toList.dropWhile (· != ' ') with
  | [] => ofAssembly? name []
  | _ :: operands => do
    ofAssembly? name (← (operandTexts operands).mapM Operand.ofText?)

example : ofMnemonic? "LD [I], V3" = some (.storeRegisters ⟨3, by decide⟩) := by cbv

end Instruction

end ChipEight
