import ChipEight.Machine.Operation
import ChipEight.Proofs.Cells.Access

/-!
# The machine in cells

The machine once more, laid out in rows of cells whose sizes no type fixes: memory of
any length, registers, pixels and call stack slots under plain positions, the stack with
a depth beside it. Every operation makes its accesses one after the other and traps at
the first that cannot be made.
-/

set_option autoImplicit false

namespace ChipEight

structure CellMachine where
  bytes : Array UInt8
  origin : UInt16
  programSize : Nat
  pixels : Array Bool
  registers : Array UInt8
  index : UInt16
  counter : UInt16
  /-- The return addresses, the oldest first; slots from `depth` on are stale. -/
  slots : Array UInt16
  depth : Nat
  delay : UInt8
  delaySince : UInt64
  now : UInt64
  sound : UInt8
  keys : UInt16
  awaiting : Option Nat
  random : RandomBytes

namespace CellMachine

open Cells

def new (random : RandomBytes) : Except Trap CellMachine := do
  let bytes ← overwrite (Array.replicate ramSize 0) Font.address.toNat Font.glyphs
  return {
    bytes, origin := programStart, programSize := 0
    pixels := Array.replicate 2048 false, registers := Array.replicate 16 0
    index := 0, counter := programStart
    slots := Array.replicate callDepthLimit 0, depth := 0
    delay := 0, delaySince := 0, now := 0, sound := 0
    keys := 0, awaiting := none, random }

def register (machine : CellMachine) (position : Nat) : Except Trap UInt8 :=
  fetch machine.registers position

def setRegister (machine : CellMachine) (position : Nat) (value : UInt8) :
    Except Trap CellMachine := do
  return { machine with registers := ← store machine.registers position value }

def setFlag (machine : CellMachine) (flag : Bool) : Except Trap CellMachine :=
  machine.setRegister flagRegister.val flag.toUInt8

/-- The byte at an address modulo the size of memory. -/
def read (machine : CellMachine) (address : UInt16) : Except Trap UInt8 := do
  let cell ← remainder address.toNat machine.bytes.size
  fetch (← block machine.bytes cell 1) 0

def write (machine : CellMachine) (address : UInt16) (value : UInt8) :
    Except Trap CellMachine := do
  let cell ← remainder address.toNat machine.bytes.size
  return { machine with bytes := ← overwrite machine.bytes cell [value] }

def word (machine : CellMachine) (address : UInt16) : Except Trap UInt16 := do
  let high ← machine.read address
  let low ← machine.read (address + 1)
  return high.toUInt16 * 256 + low.toUInt16

def readAt (machine : CellMachine) (offset : Nat) : Except Trap UInt8 :=
  machine.read (machine.index + UInt16.ofNat offset)

def writeAt (machine : CellMachine) (offset : Nat) (value : UInt8) : Except Trap CellMachine :=
  machine.write (machine.index + UInt16.ofNat offset) value

def isDown (machine : CellMachine) (key : UInt8) : Except Trap Bool :=
  if key ≤ 0xf then do
    return machine.keys &&& (← bit key) != 0
  else return false

def holds (machine : CellMachine) : Condition → Except Trap Bool
  | .equalByte x byte => do return (← machine.register x.val) == byte
  | .unequalByte x byte => do return (← machine.register x.val) != byte
  | .equal x y => do return (← machine.register x.val) == (← machine.register y.val)
  | .unequal x y => do return (← machine.register x.val) != (← machine.register y.val)
  | .pressed x => do machine.isDown (← machine.register x.val)
  | .released x => do return !(← machine.isDown (← machine.register x.val))

def compute (machine : CellMachine) (operation : Arithmetic) (x y : Nat) :
    Except Trap CellMachine := do
  let left ← machine.register x
  let right ← machine.register y
  let result := operation.result left right
  match operation.flag? left right with
  | none => machine.setRegister x result
  | some flag =>
    if operation = .add then (← machine.setRegister x result).setFlag flag
    else (← machine.setFlag flag).setRegister x result

/-- Turns the pixel under one bit of a sprite row, unless the bit is unset or falls past
the right edge. -/
def drawBit (byte : UInt8) (x y column : Nat) (picture : Array Bool × Bool) :
    Except Trap (Array Bool × Bool) :=
  if byte.toNat.testBit (7 - column) = false ∨ 64 ≤ x + column then return picture
  else do
    let position := y * 64 + (x + column)
    let lit ← fetch picture.1 position
    return (← store picture.1 position (!lit), picture.2 || lit)

def drawRow (byte : UInt8) (x y : Nat) (picture : Array Bool × Bool) :
    Except Trap (Array Bool × Bool) :=
  (List.range 8).foldlM (fun picture column => drawBit byte x y column picture) picture

/-- Draws row under row, down to the bottom edge and no further. -/
def drawRows (x : Nat) : (sprite : List UInt8) → (y : Nat) → Array Bool × Bool →
    Except Trap (Array Bool × Bool)
  | [], _, picture => return picture
  | byte :: below, y, picture =>
    if 32 ≤ y then return picture
    else do drawRows x below (y + 1) (← drawRow byte x y picture)

/-- The sprite is gathered in a buffer of fifteen bytes, of which it takes the first. -/
def drawSprite (machine : CellMachine) (x y rows : Nat) : Except Trap CellMachine := do
  let left ← machine.register x
  let top ← machine.register y
  let buffer ← block (Array.replicate 15 (0 : UInt8)) 0 rows
  let sprite ← (List.range buffer.size).mapM machine.readAt
  let cleared ← machine.setRegister flagRegister.val 0
  let (pixels, collided) ← drawRows left.toNat sprite top.toNat (cleared.pixels, false)
  { cleared with pixels }.setFlag collided

def storeDecimal (machine : CellMachine) (value : UInt8) : Except Trap CellMachine := do
  let hundreds ← machine.writeAt 0 (value / 100)
  let tens ← hundreds.writeAt 1 (value / 10 % 10)
  tens.writeAt 2 (value % 10)

def storeRegisters (machine : CellMachine) (x : Nat) : Except Trap CellMachine :=
  (List.range (x + 1)).foldlM
    (fun machine position => do machine.writeAt position (← machine.register position)) machine

def loadRegisters (machine : CellMachine) (x : Nat) : Except Trap CellMachine :=
  (List.range (x + 1)).foldlM
    (fun machine position => do machine.setRegister position (← machine.readAt position)) machine

/-- The address of a glyph, without a bound on the digit. -/
def glyphAddress (digit : UInt8) : Except Trap UInt16 := do
  let distance ← wide (digit.toNat * Font.glyphHeight)
  wide (Font.address.toNat + distance.toNat)

/-- An instruction that meets a fault has done nothing. -/
def execute (machine : CellMachine) :
    Instruction → Except Trap (Option Fault × CellMachine)
  | .clearScreen =>
    return (none, { machine with pixels := Array.replicate machine.pixels.size false })
  | .ret =>
    if machine.depth = 0 then return (some .callStackEmpty, machine)
    else do
      let depth ← less machine.depth 1
      return (none, { machine with counter := ← fetch machine.slots depth, depth })
  | .jump target => return (none, { machine with counter := UInt16.ofNat target.val })
  | .call target =>
    if machine.depth = callDepthLimit then return (some .callStackFull, machine)
    else do
      let slots ← store machine.slots machine.depth machine.counter
      return (none,
        { machine with slots, depth := machine.depth + 1, counter := UInt16.ofNat target.val })
  | .skip condition => do
    if ← machine.holds condition then
      return (none, { machine with counter := machine.counter + 2 })
    else return (none, machine)
  | .setByte x byte => do return (none, ← machine.setRegister x.val byte)
  | .addByte x byte => do
    return (none, ← machine.setRegister x.val ((← machine.register x.val) + byte))
  | .arithmetic operation x y => do return (none, ← machine.compute operation x.val y.val)
  | .setIndex target => return (none, { machine with index := UInt16.ofNat target.val })
  | .jumpOffset target => do
    let offset ← machine.register offsetRegister.val
    return (none, { machine with counter := UInt16.ofNat target.val + offset.toUInt16 })
  | .random x mask => do
    let drawn := { machine with random := machine.random.advance }
    return (none, ← drawn.setRegister x.val (machine.random.next &&& mask))
  | .draw x y rows => do return (none, ← machine.drawSprite x.val y.val rows.val)
  | .readDelay x => do return (none, ← machine.setRegister x.val machine.delay)
  | .awaitKey x =>
    return (none, { machine with awaiting := some x.val, counter := machine.counter - 2 })
  | .setDelay x => do
    return (none, { machine with delay := ← machine.register x.val, delaySince := machine.now })
  | .setSound x => do return (none, { machine with sound := ← machine.register x.val })
  | .addIndex x => do
    let value ← machine.register x.val
    return (none, { machine with index := machine.index + value.toUInt16 })
  | .glyph x => do
    return (none, { machine with index := ← glyphAddress (← machine.register x.val) })
  | .storeDecimal x => do return (none, ← machine.storeDecimal (← machine.register x.val))
  | .storeRegisters x => do return (none, ← machine.storeRegisters x.val)
  | .loadRegisters x => do return (none, ← machine.loadRegisters x.val)

/-- The age of the delay timer saturates at zero. -/
def keepTime (machine : CellMachine) (now period : UInt64) : Except Trap CellMachine :=
  if 0 < machine.delay ∧ period.toNat < now.toNat - machine.delaySince.toNat then do
    let delay ← less machine.delay.toNat 1
    return { machine with now, delay := UInt8.ofNat delay, delaySince := now }
  else return { machine with now }

def step (machine : CellMachine) (now period : UInt64) :
    Except Trap (Except Fault Instruction × CellMachine) :=
  match machine.awaiting with
  | some _ => return (.error .awaitingKey, machine)
  | none => do
    let kept ← machine.keepTime now period
    let word ← kept.word kept.counter
    let ready := { kept with counter := kept.counter + 2 }
    match Instruction.decode word with
    | .error fault => return (.error fault, ready)
    | .ok instruction =>
      match ← ready.execute instruction with
      | (some fault, after) => return (.error fault, after)
      | (none, after) => return (.ok instruction, after)

def resume (machine : CellMachine) (key : UInt8) : Except Trap CellMachine :=
  match machine.awaiting with
  | none => return machine
  | some register => do
    let stored ← machine.setRegister register key
    return { stored with counter := stored.counter + 2, awaiting := none }

def press (machine : CellMachine) (key : UInt8) :
    Except Trap (Except Fault Unit × CellMachine) :=
  if key > 0xf then return (.error (.keyOutOfRange key), machine)
  else do
    let noted := { machine with keys := machine.keys ||| (← bit key) }
    return (.ok (), ← noted.resume key)

def release (machine : CellMachine) (key : UInt8) :
    Except Trap (Except Fault Unit × CellMachine) :=
  if key > 0xf then return (.error (.keyOutOfRange key), machine)
  else do return (.ok (), { machine with keys := machine.keys &&& ~~~(← bit key) })

/-- Clears memory, and writes the font and then the program over it. -/
def load (machine : CellMachine) (program : List UInt8) :
    Except Trap (Except Fault Unit × CellMachine) :=
  if program.length > programLimit then
    return (.error (.programTooLarge program.length programLimit), machine)
  else do
    let cleared := Array.replicate machine.bytes.size 0
    let blank ← overwrite cleared Font.address.toNat Font.glyphs
    let bytes ← overwrite blank machine.origin.toNat program
    return (.ok (), { machine with
      bytes, programSize := program.length
      pixels := Array.replicate machine.pixels.size false
      registers := Array.replicate 16 0
      index := 0, counter := machine.origin
      slots := Array.replicate callDepthLimit 0, depth := 0
      delay := 0, delaySince := 0, sound := 0
      keys := 0, awaiting := none })

def loadFrom (machine : CellMachine) (stream : ByteStream) :
    Except Trap (Except Fault Unit × CellMachine) :=
  match stream.readUpTo (programLimit + 1) with
  | .ok program => machine.load program
  | .error cause => return (.error (.programUnreadable cause), machine)

def lowerSound (machine : CellMachine) : Except Trap CellMachine :=
  if machine.sound = 0 then return machine
  else do return { machine with sound := UInt8.ofNat (← less machine.sound.toNat 1) }

def perform (machine : CellMachine) : Operation → Except Trap (Reply × CellMachine)
  | .step now period => do
    let (outcome, after) ← machine.step now period
    return (.ofStep outcome, after)
  | .press key => do
    let (outcome, after) ← machine.press key
    return (.ofOutcome outcome, after)
  | .release key => do
    let (outcome, after) ← machine.release key
    return (.ofOutcome outcome, after)
  | .load program => do
    let (outcome, after) ← machine.load program
    return (.ofOutcome outcome, after)
  | .loadFrom stream => do
    let (outcome, after) ← machine.loadFrom stream
    return (.ofOutcome outcome, after)
  | .readSound => return (.level machine.sound, machine)
  | .writeSound value => return (.done, { machine with sound := value })
  | .lowerSound => do
    let lowered ← machine.lowerSound
    return (.level lowered.sound, lowered)

/-- Does operations in turn; the first trap ends them. -/
def performAll (machine : CellMachine) :
    List Operation → Except Trap (List Reply × CellMachine)
  | [] => return ([], machine)
  | operation :: later => do
    let (reply, next) ← machine.perform operation
    let (replies, last) ← next.performAll later
    return (reply :: replies, last)

end CellMachine

end ChipEight
