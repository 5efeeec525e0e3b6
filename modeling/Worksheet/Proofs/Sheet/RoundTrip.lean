import Worksheet.Proofs.Sheet.Replay
import Worksheet.Proofs.Sheet.Storage

/-!
# Saving and loading

A sheet that is saved is loaded as it was, and saved again as before.

* `Sheet.Kept`: what is stored under a name is a sheet, and is loaded as it.
* `Reachable.round_trip`: what is stored by saving a reachable sheet is the sheet.
-/

namespace Worksheet

open Worksheet.Formula (Idempotent)

variable {σ ε δ : Type}

namespace Sheet

/-- What is stored under a name is a sheet. It is loaded with its cells as they are, and counts as
unchanged; and wherever it is saved then, the same is written as for the sheet. -/
structure Kept (storage : Storage σ ε δ) (state : σ) (file : String) (sheet loaded : Sheet) :
    Prop where
  version : savedVersion storage state file = .ok sheet.version
  opened : openSaved storage state file sheet.naming sheet.version = .ok loaded
  cells : loaded.cells = sheet.cells
  unchanged : loaded.changed = false
  again : ∀ other name, (loaded.save storage other name).1 = (sheet.save storage other name).1
    ∧ (loaded.save storage other name).2.1 = (sheet.save storage other name).2.1

variable {storage : Storage σ ε δ} {state state' : σ} {file : String} {sheet sheet' : Sheet}

/-- A sheet is saved if it is written, and then counts as unchanged. -/
theorem save_eq_ok : sheet.save storage state file = (.ok (), state', sheet') ↔
    storage.write state file sheet.saved = (.ok (), state')
      ∧ { sheet with changed := false } = sheet' := by
  unfold save
  split
  · next heq => simp [heq]
  · next heq => simp [heq]

/-- Sheets of which the same is saved have the same written, and the same refused. -/
theorem save_congr {loaded : Sheet} (h : loaded.saved = sheet.saved) (state : σ) (file : String) :
    (loaded.save storage state file).1 = (sheet.save storage state file).1
      ∧ (loaded.save storage state file).2.1 = (sheet.save storage state file).2.1 := by
  unfold save
  rw [h]
  rcases storage.write state file sheet.saved with ⟨_ | _, state'⟩ <;> exact ⟨rfl, rfl⟩

/-- What is saved is kept, by a storage that reads what was written. -/
theorem Consistent.exists_kept (h : sheet.Consistent) (hnaming : Idempotent sheet.naming)
    (hstorage : storage.Faithful)
    (hsave : sheet.save storage state file = (.ok (), state', sheet')) :
    ∃ loaded, Kept storage state' file sheet loaded := by
  obtain ⟨hwrite, -⟩ := save_eq_ok.mp hsave
  -- What is read is what was saved, and the rest is done by loading it.
  have hread := hstorage state file sheet.saved state' hwrite
  obtain ⟨loaded, hload, hcells, hchanged⟩ := load_saved h hnaming
  have hsaved : loaded.saved = sheet.saved := by
    rw [saved, saved, hcells, (Reachable.loaded hload).settings.2]
  refine ⟨loaded, ?_, ?_, hcells, hchanged, save_congr hsaved⟩
  · rw [savedVersion, hread]
    rfl
  · rw [openSaved, hread]
    dsimp only
    rw [hload]
    rfl

/-- Where saving the sheet again leaves everything as it is, so does saving the loaded sheet. -/
theorem Kept.save_again {loaded : Sheet} (h : Kept storage state file sheet loaded)
    (hsave : sheet.save storage state file = (.ok (), state, sheet')) :
    loaded.save storage state file = (.ok (), state, loaded) := by
  have hagain := h.again state file
  rw [hsave] at hagain
  obtain ⟨hresult, hstate⟩ := hagain
  have hloaded : loaded.save storage state file
      = (.ok (), state, (loaded.save storage state file).2.2) :=
    Prod.ext hresult (Prod.ext hstate rfl)
  obtain ⟨-, hsame⟩ := save_eq_ok.mp hloaded
  have hunchanged : { loaded with changed := false } = loaded := by
    rw [← h.unchanged]
  rw [hloaded, ← hsame, hunchanged]

namespace Reachable

variable {naming : Naming} {version : String}

/-- A sheet that is saved is loaded as it was, from a storage that reads what was written and from a
file alike; and when the loaded sheet is saved to the file again, the folder stays as it is. -/
theorem round_trip (h : Reachable naming version sheet) (hnaming : Idempotent naming) :
    (∀ {σ ε δ : Type} (storage : Storage σ ε δ), storage.Faithful →
      ∀ state file state' sheet', sheet.save storage state file = (.ok (), state', sheet') →
        ∃ loaded, Kept storage state' file sheet loaded)
    ∧ ∀ folder file folder' sheet', sheet.save .files folder file = (.ok (), folder', sheet') →
      ∃ loaded, Kept .files folder' file sheet loaded
        ∧ loaded.save .files folder' file = (.ok (), folder', loaded) := by
  have hsheet := h.consistent
  rw [← h.settings.1] at hnaming
  refine ⟨?_, ?_⟩
  · intro σ ε δ storage hstorage state file state' sheet' hsave
    exact hsheet.exists_kept hnaming hstorage hsave
  · intro folder file folder' sheet' hsave
    obtain ⟨loaded, hkept⟩ := hsheet.exists_kept hnaming Storage.files_faithful hsave
    obtain ⟨hwrite, -⟩ := save_eq_ok.mp hsave
    exact ⟨loaded, hkept, hkept.save_again (save_eq_ok.mpr ⟨Folder.write_again hwrite, rfl⟩)⟩

/-- A formula that reads a cell without contents can be saved and loaded, on a shelf and as a file. -/
theorem round_trip_reference :
    ∃ sheet, Reachable .standard "1" sheet ∧ sheet.saved = ⟨"1", [("B1", "=A1")]⟩
      ∧ (∃ state loaded, Kept .shelf state "sheet" sheet loaded)
      ∧ ∃ folder loaded, Kept .files folder "sheet.xml" sheet loaded
        ∧ loaded.save .files folder "sheet.xml" = (.ok (), folder, loaded) := by
  have h : Reachable .standard "1"
      ((Sheet.empty .standard "1").setContents (.text "B1") (some "=A1")).2 :=
    .set _ _ .empty
  have hsaved : ((Sheet.empty .standard "1").setContents (.text "B1") (some "=A1")).2.saved
      = ⟨"1", [("B1", "=A1")]⟩ := by cbv
  generalize ((Sheet.empty .standard "1").setContents (.text "B1") (some "=A1")).2 = sheet
    at h hsaved
  have hstorable : Saved.Storable ⟨"1", [("B1", "=A1")]⟩ := Saved.check_eq_ok_iff.mp (by cbv)
  have hnull : '\x00' ∉ "sheet.xml".toList := by decide
  have hfile : (Folder.empty fun _ => true).writable "sheet.xml" = true := rfl
  have hwrite : Storage.files.write (.empty fun _ => true) "sheet.xml" sheet.saved
      = (.ok (), (Folder.empty fun _ => true).put "sheet.xml"
          (Saved.render ⟨"1", [("B1", "=A1")]⟩)) := by
    rw [hsaved]
    exact Folder.write_of_storable hnull hfile hstorable
  obtain ⟨hstorage, hfiles⟩ := round_trip h fun _ => rfl
  have hshelf := hstorage .shelf Storage.shelf_faithful .empty "sheet" _ _ rfl
  have hfolder := hfiles (.empty fun _ => true) "sheet.xml" _ _ (save_eq_ok.mpr ⟨hwrite, rfl⟩)
  exact ⟨sheet, h, hsaved, ⟨_, hshelf⟩, _, hfolder⟩

end Reachable

end Sheet

end Worksheet
