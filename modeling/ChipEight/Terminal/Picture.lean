import ChipEight.Terminal.Display

/-!
# Pictures

What can be seen on a terminal, without the order in which it was written: the text,
how many cells have which look, and whether the cursor is visible.
-/

set_option autoImplicit false

namespace ChipEight

/-- What a cell holds: a pixel of the machine's screen, nothing, or part of a frame. -/
inductive CellKind where
  | blank
  | block
  | frame
deriving DecidableEq, Repr

namespace CellKind

def name : CellKind → String
  | .blank => "blank"
  | .block => "block"
  | .frame => "frame"

def all : List CellKind := [.blank, .block, .frame]

end CellKind

namespace Color

def name : Color → String
  | .black => "black"
  | .plain => "default"
  | .white => "white"

def all : List Color := [.black, .plain, .white]

end Color

namespace Cell

def kind (cell : Cell) : CellKind :=
  if cell.glyph = ' ' then .blank else if cell.glyph = '▄' then .block else .frame

/-- A cell as a character: pixels are told apart by their color. -/
def character (cell : Cell) : Char :=
  match cell.kind, cell.foreground with
  | .block, .white => '#'
  | .block, .black => '.'
  | _, _ => cell.glyph

end Cell

/-- The look of a cell apart from its character. -/
structure Look where
  kind : CellKind
  foreground : Color
  background : Color
deriving DecidableEq, Repr

namespace Look

def ofCell (cell : Cell) : Look := ⟨cell.kind, cell.foreground, cell.background⟩

/-- All looks, by kind, then foreground, then background. -/
def all : List Look :=
  CellKind.all.flatMap fun kind =>
    Color.all.flatMap fun foreground => Color.all.map fun background =>
      ⟨kind, foreground, background⟩

end Look

/-- What can be seen on a terminal. -/
structure Picture where
  /-- The rows from the top, without blanks at their ends and without empty rows below. -/
  text : List String
  /-- How many cells have each look; looks that no cell has are left out. -/
  looks : List (Look × Nat)
  cursorVisible : Bool
deriving DecidableEq, Repr

namespace Picture

/-- A list without those last elements that satisfy a test. -/
def dropLastWhile {α : Type} (test : α → Bool) (elements : List α) : List α :=
  (elements.reverse.dropWhile test).reverse

def textOf (grid : Grid) : List String :=
  let lines := grid.rows.map fun row => dropLastWhile (· == ' ') (row.map Cell.character)
  (dropLastWhile List.isEmpty lines).map String.ofList

def looksOf (grid : Grid) : List (Look × Nat) :=
  let looks := grid.cells.toList.map Look.ofCell
  (Look.all.map fun look => (look, looks.count look)).filter fun (_, count) => count != 0

def ofDisplay (display : TerminalDisplay) : Picture :=
  ⟨textOf display.shown, looksOf display.shown, display.cursorVisible⟩

end Picture

end ChipEight
