/-!
# Grids of cells

The character cells of a terminal in rows of equal length, kept one row after the
other. A grid that changes its size keeps its cells in that order, so they may come
to stand in other places.
-/

set_option autoImplicit false

namespace ChipEight

/-- The colors in use; `plain` is the terminal's own. -/
inductive Color where
  | black
  | plain
  | white
deriving DecidableEq, Repr

structure Cell where
  glyph : Char := ' '
  foreground : Color := .plain
  background : Color := .plain
deriving DecidableEq, Repr

def Cell.blank : Cell := {}

/-- How many cells a terminal has in a row, and how many rows. -/
structure GridSize where
  columns : Nat
  rows : Nat
deriving DecidableEq, Repr

namespace GridSize

def areaLimit : Nat := 65535

/-- What a display uses of a terminal of this size. A terminal with more cells than the
limit is used in part: about the largest part within the limit that has its ratio of
columns to rows, as computed in double precision. -/
def usable (size : GridSize) : GridSize :=
  if size.columns * size.rows ≤ areaLimit then size
  else
    let ratio := Float.ofNat size.columns / Float.ofNat size.rows
    let rows := (Float.ofNat areaLimit / ratio).sqrt
    ⟨(rows * ratio).toUInt16.toNat, rows.toUInt16.toNat⟩

end GridSize

/-- The cells of a terminal, row after row from the top. -/
structure Grid where
  size : GridSize
  cells : Array Cell
deriving DecidableEq, Repr

/-- What is done to the cell in a column and a row. -/
structure Stroke where
  column : Nat
  row : Nat
  change : Cell → Cell

namespace Grid

def blank (size : GridSize) : Grid :=
  ⟨size, Array.replicate (size.columns * size.rows) .blank⟩

/-- The grid in another size. Cells that have no place any more are dropped, and blank
ones fill what is free. -/
def resize (grid : Grid) (size : GridSize) : Grid :=
  let count := size.columns * size.rows
  ⟨size, grid.cells.take count ++ Array.replicate (count - grid.cells.size) .blank⟩

/-- Where the cell in a column and a row is kept. A column behind the last one stands
for a cell of a later row. -/
def position (size : GridSize) (column row : Nat) : Nat := row * size.columns + column

/-- Makes strokes one after the other, up to the first that falls behind the last cell.
Tells whether all of them were made. -/
def make (grid : Grid) : List Stroke → Bool × Grid
  | [] => (true, grid)
  | stroke :: later =>
    let target := position grid.size stroke.column stroke.row
    if target < grid.cells.size then
      make { grid with cells := grid.cells.modify target stroke.change } later
    else (false, grid)

/-- The cells of a grid that are not the same in a former one, with where they are kept. -/
def differences (former grid : Grid) : List (Nat × Cell) :=
  ((former.cells.zip grid.cells).zipIdx.filter fun ((old, new), _) => old != new).toList.map
    fun ((_, new), target) => (target, new)

/-- Puts cells of a grid of size `origin` into the same columns and rows of this one. -/
def update (grid : Grid) (origin : GridSize) : List (Nat × Cell) → Grid
  | [] => grid
  | (kept, cell) :: later =>
    let target := position grid.size (kept % origin.columns) (kept / origin.columns)
    update { grid with cells := grid.cells.setIfInBounds target cell } origin later

def rows (grid : Grid) : List (List Cell) :=
  (List.range grid.size.rows).map fun row =>
    (grid.cells.extract (row * grid.size.columns) ((row + 1) * grid.size.columns)).toList

end Grid

end ChipEight
