import ChipEight.Terminal.Display

/-!
# Escape sequences

The text that makes a terminal show the cells of a picture, and the control sequences
around it.
-/

set_option autoImplicit false

namespace ChipEight.Escape

def clear : String := "\x1b[2J"

def hideCursor : String := "\x1b[?25l"

def showCursor : String := "\x1b[?25h"

def bell : String := "\x07"

/-- The code of a color within a family of eight, of which the ninth is the terminal's own. -/
def colorCode : Color → Nat
  | .black => 0
  | .white => 7
  | .plain => 9

/-- Writes a cell at a position of a terminal with so many columns. -/
def cellText (columns position : Nat) (cell : Cell) : String :=
  let row := position / columns + 1
  let column := position % columns + 1
  let foreground := 30 + colorCode cell.foreground
  let background := 40 + colorCode cell.background
  s!"\x1b[{row};{column}H\x1b[{foreground};{background}m{cell.glyph}"

def change (before after : Grid) : String :=
  String.join <| (Grid.differences before after).map fun (position, cell) =>
    cellText after.size.columns position cell

/-- Puts the cursor below the picture. -/
def leave : String := s!"\x1b[0m\x1b[{framedRows};1H"

end ChipEight.Escape
