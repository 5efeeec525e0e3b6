import Worksheet.Proofs.Sheet.RoundTrip

/-!
# Saving and loading on a desk

What becomes of a desk when its sheet is saved, or another is loaded in its place. Saving touches the
state of the storage and loading the sheet, and nothing else.

* `Desk.save_cases`: a sheet is stored and counts as unchanged, or it stays as it was.
* `Desk.load_cases`: a sheet comes from what is stored, or the desk stays as it was.
-/

namespace Worksheet.Desk

variable {σ ε δ : Type} {storage : Storage σ ε δ} {desk : Desk σ} {file : String} {naming : Naming}
  {version : String}

/-! ### Loading

A sheet is loaded in two steps: it is read from what is stored, and then its cells are set. Either
may fail, and then the sheet of the desk is not replaced.
-/

/-- What cannot be read is not loaded. -/
theorem load_of_missing {fault : δ} (h : storage.read desk.state file = .error fault) :
    desk.load storage file naming version = (.error (.storage fault), desk) := by
  unfold load Sheet.openSaved
  simp only [h]

/-- What has been read is not loaded if its cells cannot be set. -/
theorem load_of_refused {saved : Saved (Option String)} {fault : LoadFault}
    (h : storage.read desk.state file = .ok saved)
    (hload : Sheet.load naming version saved = .error fault) :
    desk.load storage file naming version = (.error (.sheet fault), desk) := by
  unfold load Sheet.openSaved
  simp only [h, hload, Except.mapError]

/-- What has been read and can be set comes in the place of the sheet. -/
theorem load_of_stored {saved : Saved (Option String)} {sheet : Sheet}
    (h : storage.read desk.state file = .ok saved)
    (hload : Sheet.load naming version saved = .ok sheet) :
    desk.load storage file naming version = (.ok (), { desk with sheet }) := by
  unfold load Sheet.openSaved
  simp only [h, hload, Except.mapError]

/-- Nothing is loaded, for what is stored or for what is in it, and the desk stays as it was; or a
sheet comes from what is stored. -/
theorem load_cases (storage : Storage σ ε δ) (desk : Desk σ) (file : String) (naming : Naming)
    (version : String) :
    (∃ fault, storage.read desk.state file = .error fault
        ∧ desk.load storage file naming version = (.error (.storage fault), desk))
    ∨ (∃ saved fault, storage.read desk.state file = .ok saved
        ∧ Sheet.load naming version saved = .error fault
        ∧ desk.load storage file naming version = (.error (.sheet fault), desk))
    ∨ ∃ saved sheet, storage.read desk.state file = .ok saved
        ∧ Sheet.load naming version saved = .ok sheet
        ∧ desk.load storage file naming version = (.ok (), { desk with sheet }) := by
  cases hstored : storage.read desk.state file with
  | error fault => exact .inl ⟨fault, rfl, load_of_missing hstored⟩
  | ok saved =>
    cases hload : Sheet.load naming version saved with
    | error fault => exact .inr (.inl ⟨saved, fault, rfl, hload, load_of_refused hstored hload⟩)
    | ok sheet => exact .inr (.inr ⟨saved, sheet, rfl, hload, load_of_stored hstored hload⟩)

/-! ### Saving

Whether something is saved is decided by the storage alone. What it leaves of its state after a
refusal is up to it, so that state is taken as it is.
-/

/-- What has been written is saved. -/
theorem save_of_written {state : σ}
    (h : storage.write desk.state file desk.sheet.saved = (.ok (), state)) :
    desk.save storage file = (.ok (), ⟨{ desk.sheet with changed := false }, state⟩) := by
  unfold save Sheet.save
  rw [h]

/-- What the storage refuses is not, and the sheet counts as it did. -/
theorem save_of_refused {fault : ε} {state : σ}
    (h : storage.write desk.state file desk.sheet.saved = (.error fault, state)) :
    desk.save storage file = (.error fault, { desk with state }) := by
  unfold save Sheet.save
  rw [h]

/-- A sheet is not saved, and stays as it was; or it is written as it is, and counts as unchanged. -/
theorem save_cases (storage : Storage σ ε δ) (desk : Desk σ) (file : String) :
    (∃ fault state, storage.write desk.state file desk.sheet.saved = (.error fault, state)
        ∧ desk.save storage file = (.error fault, { desk with state }))
    ∨ ∃ state, storage.write desk.state file desk.sheet.saved = (.ok (), state)
        ∧ desk.save storage file = (.ok (), ⟨{ desk.sheet with changed := false }, state⟩) := by
  rcases hwrite : storage.write desk.state file desk.sheet.saved with ⟨fault | _, state⟩
  · exact .inl ⟨fault, state, rfl, save_of_refused hwrite⟩
  · exact .inr ⟨state, rfl, save_of_written hwrite⟩

end Worksheet.Desk
