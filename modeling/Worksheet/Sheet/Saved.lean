import Worksheet.Sheet.Basic

/-!
# Saved sheets

What is kept of a sheet when it is saved: its version and the typed text of each cell, in order. A
sheet is loaded by setting its cells again one after the other, under the names and with the checks
of the sheet that is to be.
-/

namespace Worksheet

/-- A saved sheet whose cells have contents of type `γ`. -/
structure Saved (γ : Type) where
  version : String
  cells : List (String × γ)
deriving Repr, DecidableEq

/-- Changes the contents. -/
def Saved.map {γ δ : Type} (f : γ → δ) (saved : Saved γ) : Saved δ :=
  ⟨saved.version, saved.cells.map fun (name, contents) => (name, f contents)⟩

/-- Why a saved sheet cannot be loaded. -/
inductive LoadFault where
  | otherVersion (found expected : String)
  | cell (name : String) (refusal : Refusal)
deriving DecidableEq

/-- Whether the fault lies in what is saved. A content that is no text is none that can be saved. -/
def LoadFault.ofSaved : LoadFault → Bool
  | cell _ .missingContent => false
  | _ => true

/-- The wording of the fault. -/
def LoadFault.message : LoadFault → String
  | otherVersion found expected =>
    "Version mismatch: file has " ++ Text.quoted found ++ ", expected " ++ Text.quoted expected
  | cell name refusal => "Cannot load cell " ++ Text.quoted name ++ ": " ++ refusal.message

namespace Sheet

/-- What is saved of a sheet. -/
def saved (sheet : Sheet) : Saved String :=
  ⟨sheet.version, sheet.cells.entries.map fun (name, cell) => (name, cell.content.typed)⟩

/-- Sets one cell of a saved sheet. -/
def enter (sheet : Sheet) (entry : String × Option String) : Except LoadFault Sheet :=
  match sheet.setContents (.text entry.1) entry.2 with
  | (.ok _, sheet) => .ok sheet
  | (.error refusal, _) => .error (.cell entry.1 refusal)

/-- Loads a saved sheet. Its version must be the expected one. -/
def load (naming : Naming) (version : String) (saved : Saved (Option String)) :
    Except LoadFault Sheet :=
  if saved.version = version then do
    let sheet ← saved.cells.foldlM enter (empty naming version)
    return { sheet with changed := false }
  else throw (.otherVersion saved.version version)

end Sheet
end Worksheet
