import ChipEight.Machine.State
import ChipEight.Screen.Sprite

/-!
# Instructions at work

What each instruction does to a machine whose program counter has already moved on
to the next instruction. Two instructions can be in the way of the call stack;
`obstacle?` names that fault, and an instruction with an obstacle is not executed.
-/

set_option autoImplicit false

namespace ChipEight

namespace Arithmetic

def result (x y : UInt8) : Arithmetic → UInt8
  | .copy => y
  | .or => x ||| y
  | .and => x &&& y
  | .xor => x ^^^ y
  | .add => x + y
  | .subtract => x - y
  | .shiftRight => x >>> 1
  | .subtractFrom => y - x
  | .shiftLeft => x <<< 1

/-- The flag that an operation leaves, if it touches the flag at all: the carry of a
sum, the strictly greater minuend of a difference, the bit that a shift drops. -/
def flag? (x y : UInt8) : Arithmetic → Option Bool
  | .copy | .or | .and | .xor => none
  | .add => some (decide (255 < x.toNat + y.toNat))
  | .subtract => some (decide (y < x))
  | .shiftRight => some (x.toNat.testBit 0)
  | .subtractFrom => some (decide (x < y))
  | .shiftLeft => some (x.toNat.testBit 7)

end Arithmetic

namespace Machine

def holds (machine : Machine) : Condition → Bool
  | .equalByte x byte => machine.register x == byte
  | .unequalByte x byte => machine.register x != byte
  | .equal x y => machine.register x == machine.register y
  | .unequal x y => machine.register x != machine.register y
  | .pressed x => machine.keypad.isDown (machine.register x)
  | .released x => !machine.keypad.isDown (machine.register x)

/-- Both operands are read before anything is written. A sum writes its flag last and
every other operation its result, so that is what stays when VX is the flag itself. -/
def compute (machine : Machine) (operation : Arithmetic) (x y : Register) : Machine :=
  let left := machine.register x
  let right := machine.register y
  let result := operation.result left right
  match operation.flag? left right with
  | none => machine.setRegister x result
  | some flag =>
    if operation = .add then (machine.setRegister x result).setFlag flag
    else (machine.setFlag flag).setRegister x result

def spriteAt (machine : Machine) (rows : Nat) : List UInt8 :=
  (List.range rows).map machine.readAt

/-- Draws the sprite at I with its corner at (VX, VY). The flag tells of a collision. -/
def drawSprite (machine : Machine) (x y : Register) (rows : Nat) : Machine :=
  let sprite := machine.spriteAt rows
  let left := machine.register x
  let top := machine.register y
  let (screen, collided) := machine.screen.draw sprite left top
  { machine with screen }.setFlag collided

def registersUpTo (x : Register) : List Register :=
  (List.finRange 16).take (x.val + 1)

def storeRegisters (machine : Machine) (x : Register) : Machine :=
  (registersUpTo x).foldl
    (fun machine (register : Register) =>
      machine.writeAt register.val (machine.register register))
    machine

def loadRegisters (machine : Machine) (x : Register) : Machine :=
  (registersUpTo x).foldl
    (fun machine (register : Register) =>
      machine.setRegister register (machine.readAt register.val))
    machine

/-- Writes the hundreds, tens and units of a byte at I. -/
def storeDecimal (machine : Machine) (value : UInt8) : Machine :=
  ((machine.writeAt 0 (value / 100)).writeAt 1 (value / 10 % 10)).writeAt 2 (value % 10)

/-- The fault that keeps an instruction from being executed. -/
def obstacle? (machine : Machine) : Instruction → Option Fault
  | .ret => if machine.stack.isEmpty then some .callStackEmpty else none
  | .call _ => if machine.stack.length < callDepthLimit then none else some .callStackFull
  | _ => none

/-- What an instruction does, once the program counter points past it. -/
def execute (machine : Machine) : Instruction → Machine
  | .clearScreen => { machine with screen := .blank }
  | .ret =>
    match machine.stack with
    | [] => machine
    | back :: older => { machine with counter := back, stack := older }
  | .jump target => { machine with counter := UInt16.ofNat target.val }
  | .call target =>
    { machine with counter := UInt16.ofNat target.val, stack := machine.counter :: machine.stack }
  | .skip condition =>
    if machine.holds condition then { machine with counter := machine.counter + 2 } else machine
  | .setByte x byte => machine.setRegister x byte
  | .addByte x byte => machine.setRegister x (machine.register x + byte)
  | .arithmetic operation x y => machine.compute operation x y
  | .setIndex target => { machine with index := UInt16.ofNat target.val }
  | .jumpOffset target =>
    { machine with counter := UInt16.ofNat target.val + (machine.register offsetRegister).toUInt16 }
  | .random x mask =>
    let byte := machine.random.next
    { machine with random := machine.random.advance }.setRegister x (byte &&& mask)
  | .draw x y rows => machine.drawSprite x y rows
  | .readDelay x => machine.setRegister x machine.delay
  | .awaitKey x => { machine with awaiting := some x, counter := machine.counter - 2 }
  | .setDelay x => { machine with delay := machine.register x, delaySince := machine.now }
  | .setSound x => { machine with sound := ⟨machine.register x⟩ }
  | .addIndex x => { machine with index := machine.index + (machine.register x).toUInt16 }
  | .glyph x =>
    { machine with
      index := Font.address + (machine.register x).toUInt16 * UInt16.ofNat Font.glyphHeight }
  | .storeDecimal x => machine.storeDecimal (machine.register x)
  | .storeRegisters x => machine.storeRegisters x
  | .loadRegisters x => machine.loadRegisters x

end Machine

end ChipEight
