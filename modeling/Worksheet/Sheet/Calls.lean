import Worksheet.Sheet.Storage

/-!
# Calls on a desk

Everything that a caller may ask of a desk, and the answers. Saving and loading are told the storage
to use, and one run may use several of them on the same state. A run makes some calls one after the
other and keeps their answers.
-/

namespace Worksheet

variable {σ ε δ : Type}

/-- What a caller may ask for. -/
inductive Call (σ ε δ : Type) where
  | set (name : Scalar) (raw : Option String)
  | contents (name : Scalar)
  | typed (name : Scalar)
  | value (name : Scalar)
  | dependents (name : Scalar)
  | recalculation (names : List Scalar)
  | names
  | changed
  | version
  | shown
  | fresh (naming : Naming) (version : String)
  | save (storage : Storage σ ε δ) (file : String)
  | load (storage : Storage σ ε δ) (file : String) (naming : Naming) (version : String)
  | savedVersion (storage : Storage σ ε δ) (file : String)

/-- What a caller is told. -/
inductive Answer (ε δ : Type) where
  | order (result : Except Refusal (List String))
  | contents (result : Except Refusal (Option Content))
  | typed (result : Except Refusal String)
  | value (result : Except Refusal Value)
  | names (names : List String)
  | changed (changed : Bool)
  | text (text : String)
  | saved (result : Except ε Unit)
  | loaded (result : Except (OpenFault δ) Unit)
  | version (result : Except δ String)

namespace Desk

/-- Answers one call. -/
def call (desk : Desk σ) : Call σ ε δ → Answer ε δ × Desk σ
  | .set name raw =>
    let (result, desk) := desk.setContents name raw
    (.order result, desk)
  | .contents name => (.contents (desk.sheet.contents name), desk)
  | .typed name => (.typed (desk.sheet.typed name), desk)
  | .value name => (.value (desk.sheet.value name), desk)
  | .dependents name => (.order (desk.sheet.directDependents name), desk)
  | .recalculation names => (.order (desk.sheet.recalculationOrder names), desk)
  | .names => (.names desk.sheet.cells.names, desk)
  | .changed => (.changed desk.sheet.changed, desk)
  | .version => (.text desk.sheet.version, desk)
  | .shown => (.text desk.sheet.shown, desk)
  | .fresh naming version => (.loaded (.ok ()), { desk with sheet := .empty naming version })
  | .save storage file =>
    let (result, desk) := desk.save storage file
    (.saved result, desk)
  | .load storage file naming version =>
    let (result, desk) := desk.load storage file naming version
    (.loaded result, desk)
  | .savedVersion storage file => (.version (Sheet.savedVersion storage desk.state file), desk)

/-- Answers some calls, one after the other. -/
def run (desk : Desk σ) : List (Call σ ε δ) → List (Answer ε δ) × Desk σ
  | [] => ([], desk)
  | call :: calls =>
    let (answer, desk) := desk.call call
    let (answers, desk) := desk.run calls
    (answer :: answers, desk)

end Desk
end Worksheet
