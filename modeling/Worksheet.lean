import Worksheet.Expr.Integer
import Worksheet.Proofs.Expr.Conservation
import Worksheet.Proofs.Expr.Integer
import Worksheet.Proofs.Expr.Machine
import Worksheet.Proofs.Formula.Outcome
import Worksheet.Proofs.Graph.Changes
import Worksheet.Proofs.Recalculation.Search
import Worksheet.Proofs.Sheet.Acceptance
import Worksheet.Proofs.Sheet.Effect
import Worksheet.Proofs.Sheet.Errors
import Worksheet.Proofs.Sheet.History
import Worksheet.Proofs.Sheet.Loading
import Worksheet.Proofs.Sheet.Opening
import Worksheet.Proofs.Sheet.Reachable
import Worksheet.Proofs.Sheet.Refused
import Worksheet.Proofs.Sheet.Respelling
import Worksheet.Proofs.Sheet.Unchanged
import Worksheet.Sheet.Storage
import Worksheet.Proofs.Graph.Views
import Worksheet.Proofs.Graph.Undo
import Worksheet.Proofs.Sheet.Again
import Worksheet.Proofs.Expr.Fragment
import Worksheet.Proofs.Recalculation.Descent
import Worksheet.Proofs.Expr.Calls
import Worksheet.Proofs.Expr.Whole
import Worksheet.Proofs.Formula.Whole
