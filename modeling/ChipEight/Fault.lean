import ChipEight.Text.Hexadecimal

/-!
# Faults

What can go wrong in a device and in the machine, by cause. Each cause has one
message for people and one report that names the cause and its data.
-/

set_option autoImplicit false

namespace ChipEight

/-- Why a device did not do what it was asked to do. -/
inductive DeviceFailure where
  /-- Refused by the operating system, with its number and name for the cause. -/
  | system (code : Nat) (cause : String) (detail : String)
  | device (detail : String)
  | terminalTooSmall
deriving DecidableEq, Repr

namespace DeviceFailure

def notFound : DeviceFailure := .system 2 "NotFound" "No such file or directory"

def isDirectory : DeviceFailure := .system 21 "IsADirectory" "Is a directory"

def message : DeviceFailure → String
  | .system code _ detail => s!"{detail} (os error {code})"
  | .device detail => detail
  | .terminalTooSmall => "the terminal has no room for the picture"

/-- The failure with its data, as shown when a command ends with it. -/
def report : DeviceFailure → String
  | .system code cause detail =>
    s!"Os \x7b code: {code}, kind: {cause}, message: \"{detail}\" \x7d"
  | .device detail => s!"Custom \x7b kind: Other, error: \"{detail}\" \x7d"
  | .terminalTooSmall => "TerminalTooSmall"

end DeviceFailure

inductive Fault where
  /-- The word at the program counter is no instruction. -/
  | unsupportedWord (word : UInt16)
  /-- A step was asked for while a key press is awaited. -/
  | awaitingKey
  | programTooLarge (size limit : Nat)
  | programUnreadable (cause : DeviceFailure)
  | callStackFull
  | callStackEmpty
  | keyOutOfRange (key : UInt8)
  /-- The program would end beyond the last byte of memory. The program limit rules
  this out wherever programs are put at their usual address. -/
  | programOutsideMemory
deriving DecidableEq, Repr

namespace Fault

def message : Fault → String
  | .unsupportedWord word => "unsupported opcode " ++ Text.hexLiteral 4 word.toNat
  | .awaitingKey => "step called while waiting for a key press"
  | .programTooLarge size limit =>
    s!"program is too large ({size} bytes), max size is {limit} bytes"
  | .programUnreadable cause => "failed to read program: " ++ cause.message
  | .callStackFull => "call stack overflow"
  | .callStackEmpty => "return with empty call stack"
  | .keyOutOfRange key => "key " ++ Text.hexLiteral 2 key.toNat ++ " is outside the hex keypad"
  | .programOutsideMemory => "program ends outside of memory"

example : (unsupportedWord 0x8128).message = "unsupported opcode 0x8128" := by rfl

/-- The fault with its data, as shown when a command ends with it. -/
def report : Fault → String
  | .unsupportedWord word => s!"UnsupportedOpcode \x7b opcode: {word.toNat} \x7d"
  | .awaitingKey => "InvalidState"
  | .programTooLarge size limit =>
    s!"ProgramTooLarge \x7b size: {size}, max_size: {limit} \x7d"
  | .programUnreadable cause => "ProgramLoadFailed(" ++ cause.report ++ ")"
  | .callStackFull => "StackOverflow"
  | .callStackEmpty => "StackUnderflow"
  | .keyOutOfRange key => s!"InvalidKey({key.toNat})"
  | .programOutsideMemory => "ProgramOutsideMemory"

example : (unsupportedWord 0xf0ff).report = "UnsupportedOpcode \x7b opcode: 61695 \x7d" := by rfl

end Fault

end ChipEight
