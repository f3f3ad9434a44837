import ChipEight.Run.Device
import ChipEight.Screen.Export
import ChipEight.Terminal.Grid

/-!
# Terminal display

Shows the machine's screen on a terminal, in a frame at the top left. The picture is
built in a draft and compared with the picture that was sent before; only the cells
that differ are sent. A picture that does not fit is not shown, but what was made of it
stays in the draft.
-/

set_option autoImplicit false

namespace ChipEight

def framedColumns : Nat := 66

def framedRows : Nat := 34

/-- What stands in the upper edge, right behind the corner. -/
def frameTitle : List Char := ['C', 'H', 'I', 'P', '-', '8']

namespace Stroke

/-- Puts a character into a cell and leaves its colors. -/
def glyph (character : Char) (column row : Nat) : Stroke :=
  ⟨column, row, fun cell => { cell with glyph := character }⟩

def shade (column row : Nat) : Stroke :=
  ⟨column, row, fun cell => { cell with background := .black }⟩

def pixel (lit : Bool) (column row : Nat) : Stroke :=
  ⟨column, row, fun _ => { glyph := '▄', foreground := if lit then .white else .black }⟩

def ground : List Stroke :=
  (List.range framedRows).flatMap fun row =>
    (List.range framedColumns).map fun column => shade column row

def sides : List Stroke :=
  (List.range framedRows).map (glyph '│' 0) ++
    (List.range framedColumns).map (glyph '─' · 0) ++
    (List.range framedRows).map (glyph '│' (framedColumns - 1)) ++
    (List.range framedColumns).map (glyph '─' · (framedRows - 1))

def corners : List Stroke :=
  [glyph '┘' (framedColumns - 1) (framedRows - 1), glyph '┐' (framedColumns - 1) 0,
    glyph '└' 0 (framedRows - 1), glyph '┌' 0 0]

def title : List Stroke :=
  frameTitle.zipIdx.map fun (character, offset) => glyph character (offset + 1) 0

def pixels (screen : Screen) : List Stroke :=
  Screen.positions.map fun (x, y) => pixel (screen.get x y) (x + 1) (y + 1)

def framed (screen : Screen) : List Stroke :=
  ground ++ sides ++ corners ++ title ++ pixels screen

end Stroke

/-- A display with the terminal that it writes to. -/
structure TerminalDisplay where
  shown : Grid
  /-- What the display has sent, in its own view of the terminal. -/
  sent : Grid
  draft : Grid
  cursorVisible : Bool

namespace TerminalDisplay

/-- A display on a cleared terminal. The cursor is hidden while the display is in use. -/
def new (size : GridSize) : TerminalDisplay :=
  ⟨.blank size, .blank size.usable, .blank size.usable, false⟩

/-- The terminal gets another size, which clears it. The display does not know yet. -/
def resizeTerminal (display : TerminalDisplay) (size : GridSize) : TerminalDisplay :=
  { display with shown := .blank size }

/-- Brings the display to what is usable of the terminal. If that has changed, the
terminal is cleared; what is left in the draft stays there. A change that leaves the
usable part as it is goes unnoticed. -/
def fit (display : TerminalDisplay) : TerminalDisplay :=
  let size := display.shown.size.usable
  if display.draft.size = size then display
  else
    { display with
      shown := .blank display.shown.size
      sent := .blank size
      draft := display.draft.resize size }

def draw (screen : Screen) (display : TerminalDisplay) :
    Except DeviceFailure Unit × TerminalDisplay :=
  let display := display.fit
  match display.draft.make (Stroke.framed screen) with
  | (false, draft) => (.error .terminalTooSmall, { display with draft })
  | (true, picture) =>
    (.ok (),
      { shown := display.shown.update picture.size (Grid.differences display.sent picture)
        sent := picture
        draft := .blank picture.size
        cursorVisible := false })

/-- The terminal once the display is no longer in use. -/
def close (display : TerminalDisplay) : TerminalDisplay :=
  { display with cursorVisible := true }

end TerminalDisplay

def DisplayDevice.terminal : DisplayDevice TerminalDisplay where
  draw screen display := display.draw screen

end ChipEight
