import ChipEight.Screen.Basic

/-!
# Views of a screen

The same picture in other forms: packed into bytes, as lines of text, as the positions
of the pixels in either state, and as a count of set pixels.
-/

set_option autoImplicit false

namespace ChipEight.Screen

def positions : List (Nat × Nat) :=
  (List.range 32).flatMap fun y => (List.range 64).map fun x => (x, y)

/-- The positions of the pixels in the given state, row after row from the top. -/
def positionsIn (screen : Screen) (state : Bool) : List (Nat × Nat) :=
  positions.filter fun (x, y) => screen.get x y == state

/-- A position as a canvas counts it: to the right, and upwards from the top row. The numbers are
whole, and small enough for any format. -/
def onCanvas (position : Nat × Nat) : Int × Int := (position.1, -position.2)

def canvasPositions (screen : Screen) (state : Bool) : List (Int × Int) :=
  (screen.positionsIn state).map onCanvas

def litCount (screen : Screen) : Nat :=
  screen.pixels.toList.count true

/-- The eight pixels from (x, y) to the right as a byte, the leftmost as its most
significant bit. -/
def packedByte (screen : Screen) (x y : Nat) : UInt8 :=
  UInt8.ofNat <| (List.range 8).foldl
    (fun value column => 2 * value + (screen.get (x + column) y).toNat) 0

def packedRow (screen : Screen) (y : Nat) : List UInt8 :=
  (List.range 8).map fun k => screen.packedByte (8 * k) y

def packed (screen : Screen) : List UInt8 :=
  (List.range 32).flatMap screen.packedRow

/-- The screen whose packed form holds the given bytes; missing ones count as zero. -/
def ofPacked (bytes : List UInt8) : Screen :=
  ⟨Vector.ofFn fun position =>
    (bytes.getD (position.val / 8) 0).toNat.testBit (7 - position.val % 8)⟩

/-- A row of the screen as text: `#` for a set pixel and `.` for an unset one. -/
def line (screen : Screen) (y : Nat) : String :=
  String.ofList ((List.range 64).map fun x => if screen.get x y then '#' else '.')

def lines (screen : Screen) : List String :=
  (List.range 32).map screen.line

end ChipEight.Screen
