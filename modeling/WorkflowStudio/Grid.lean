import WorkflowStudio.Decimal.Root
import WorkflowStudio.Graph
import WorkflowStudio.Json.Arithmetic
import WorkflowStudio.Settings

/-!
The grid on which nodes without positions are laid out, row by row. It is about
as wide as it is high. Its measures are values of unknown kind; a cell has a
position when they can be reckoned with.
-/
namespace WorkflowStudio

structure Grid where
  origin : Json
  column : Json
  row : Json
deriving DecidableEq

/-- The grid that the settings ask for. -/
def Settings.grid (s : Settings) : Grid :=
  ⟨.int s.gridOrigin, .int s.columnSpacing, .int s.rowSpacing⟩

namespace Grid

def standard : Grid := Settings.standard.grid

/-- The number of columns for a number of nodes, which may also be a real
number. -/
def columns (total : Json) : Except Fault Int :=
  match total.amount? with
  | none => .error (.realRequired total)
  | some amount => do
      let x ← amount.asDouble
      if x.isNaN then .error (.notFiniteWhole true)
      else if x.isNegative && !x.isZero then .error .squareRootOfNegative
      else if !x.isFinite then .error (.notFiniteWhole false)
      else return max 1 x.sqrt.ceil

/-- The coordinate of a row or column. -/
def along (grid : Grid) (step count : Json) : Except Fault Json := do
  grid.origin.plus (← count.times step)

/-- The position of a cell. Cells before the first continue upwards. -/
def cell (grid : Grid) (index total : Json) : Except Fault Position := do
  let (row, column) ← index.divMod (← columns total)
  let x ← grid.along grid.column column
  let y ← grid.along grid.row row
  Position.of x y

end Grid
end WorkflowStudio
