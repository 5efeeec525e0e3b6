import Worksheet.Cell
import Worksheet.Graph
import Worksheet.Table

/-!
# Sheets

A sheet keeps its cells in order of entry, the graph of which cells read which, and whether it has
changed. Whenever the content of a cell is set, the cell and all that depend on it are computed
again, each after those it reads.

`setContents` first takes the new content and its reads into the sheet and then looks for the order
of recalculation. If the reads close a cycle, content and reads are put back as they were.
-/

namespace Worksheet

open Worksheet.Formula (Reply)

/-- Why an operation on a sheet is refused. -/
inductive Refusal where
  | invalidName (name : Scalar)
  | missingContent
  | formula (fault : Formula.Fault)
  | circular (cell : String)
deriving DecidableEq

/-- The wording of the refusal. -/
def Refusal.message : Refusal → String
  | invalidName name => "Invalid cell name: " ++ name.shown
  | missingContent => "the content of a cell must be a text"
  | formula fault => fault.message
  | circular cell => "Circular reference detected involving: " ++ cell

/-- A sheet. -/
structure Sheet where
  naming : Naming
  version : String
  cells : Table Cell
  graph : Graph
  changed : Bool

namespace Sheet

/-- A sheet without cells. -/
def empty (naming : Naming) (version : String) : Sheet where
  naming := naming
  version := version
  cells := .empty
  graph := .empty
  changed := false

/-! ### Reading -/

/-- The cell that a caller names. -/
def cellName (sheet : Sheet) (name : Scalar) : Except Refusal String :=
  match sheet.naming.cell? name with
  | some normal => .ok normal
  | none => .error (.invalidName name)

/-- The content of a cell, if it has any. -/
def contents (sheet : Sheet) (name : Scalar) : Except Refusal (Option Content) := do
  let normal ← sheet.cellName name
  return (sheet.cells.find? normal).map Cell.content

/-- The text that would be typed for the content of a cell. -/
def typed (sheet : Sheet) (name : Scalar) : Except Refusal String := do
  let content ← sheet.contents name
  return (content.map Content.typed).getD ""

/-- The value of a stored cell; the value of any other is the empty text. -/
def valueOf (sheet : Sheet) (normal : String) : Value :=
  ((sheet.cells.find? normal).map Cell.value).getD (.text "")

/-- The value of a cell. -/
def value (sheet : Sheet) (name : Scalar) : Except Refusal Value := do
  let normal ← sheet.cellName name
  return sheet.valueOf normal

/-- The cells whose formulas read a cell. -/
def directDependents (sheet : Sheet) (name : Scalar) : Except Refusal (List String) := do
  let normal ← sheet.cellName name
  return sheet.graph.dependents normal

/-- The order of recalculation of some cells and all that depend on them. -/
def recalculationOrder (sheet : Sheet) (names : List Scalar) : Except Refusal (List String) := do
  let normals ← names.mapM sheet.cellName
  (sheet.graph.order normals).mapError .circular

/-- How a sheet is shown. -/
def shown (sheet : Sheet) : String :=
  "<Spreadsheet version=" ++ Text.quoted sheet.version ++ " cells="
    ++ toString sheet.cells.names.length ++ ">"

/-! ### Computing -/

/-- What a formula of the sheet finds for a variable: the number in the cell of that name. -/
def lookup (cells : Table Cell) (name : String) : Reply :=
  match (cells.find? name).map Cell.value with
  | some (.number x) => .number x
  | _ => .undefined

/-- Computes one cell again. -/
def recalculateCell (cells : Table Cell) (name : String) : Table Cell :=
  match cells.find? name with
  | some cell =>
    cells.insert name { cell with value := cell.content.compute (m := Id) (lookup cells) }
  | none => cells

/-- Computes some cells again, one after the other. -/
def recalculate (cells : Table Cell) (order : List String) : Table Cell :=
  order.foldl recalculateCell cells

/-! ### Setting contents -/

/-- Takes a new content and its reads into the sheet, without computing anything. -/
def assign (sheet : Sheet) (name : String) (content : Option Content) : Sheet :=
  { sheet with
    cells := sheet.cells.set name (content.map fun c => ⟨c, .text ""⟩)
    graph := sheet.graph.replaceDependees name ((content.map Content.reads).getD []) }

/-- Puts a cell and its reads back. -/
def putBack (sheet : Sheet) (name : String) (cell : Option Cell) (reads : Graph.Snapshot) : Sheet :=
  { sheet with
    cells := sheet.cells.set name cell
    graph := sheet.graph.restore reads }

/-- The cell and the content that a caller asks for. -/
def accept (sheet : Sheet) (name : Scalar) (raw : Option String) :
    Except Refusal (String × Option Content) := do
  let normal ← sheet.cellName name
  match raw with
  | none => throw .missingContent
  | some raw =>
    match Content.parse sheet.naming raw with
    | .ok content => return (normal, content)
    | .error fault => throw (.formula fault)

/-- Sets the content of a cell. The result names the cells that were computed again, in order. -/
def setContents (sheet : Sheet) (name : Scalar) (raw : Option String) :
    Except Refusal (List String) × Sheet :=
  match sheet.accept name raw with
  | .error refusal => (.error refusal, sheet)
  | .ok (normal, content) =>
    let before := sheet.graph.snapshot normal
    let tried := sheet.assign normal content
    match tried.graph.order [normal] with
    | .error cell =>
      (.error (.circular cell), tried.putBack normal (sheet.cells.find? normal) before)
    | .ok order =>
      (.ok order, { tried with cells := recalculate tried.cells order, changed := true })

end Sheet
end Worksheet
