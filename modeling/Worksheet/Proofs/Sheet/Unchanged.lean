import Worksheet.Proofs.Sheet.Desk
import Worksheet.Sheet.Calls

/-!
# When a sheet counts as unchanged

A sheet that counts as unchanged has the cells that it had when it was made, loaded, or saved last.
A desk is watched for that: whatever is asked of it, and whatever others do to what is stored, the
latest such landmark is kept in mind, with the desk as it was right after it.

* `Watch`: a desk that is watched, and `Watch.take`: what the watch makes of a happening.
* `Watch.Sound`: what relates the desk to its landmark; `Sound.take` says that each happening keeps
  it, and `sound_run` that it holds all along.
* `Watch.changed_sound`: an unchanged sheet is that of the landmark, and if that was its saving, it
  is loaded as it is.
-/

namespace Worksheet

open Worksheet.Formula (Idempotent)

variable {σ ε δ : Type}

/-- What a sheet that counts as unchanged goes back to. -/
inductive Landmark (σ ε δ : Type) where
  | made
  | loaded
  | saved (storage : Storage σ ε δ) (file : String)

/-- What can happen to a desk: a call is made, or others change what is stored. -/
inductive Happening (σ ε δ : Type) where
  | call (call : Call σ ε δ)
  | elsewhere (state : σ)

namespace Desk

/-- The desk after a happening. -/
def happen (desk : Desk σ) : Happening σ ε δ → Desk σ
  | .call call => (desk.call call).2
  | .elsewhere state => { desk with state }

/-- The landmark that a call sets: a sheet is made, loaded or saved. What fails sets none. -/
def landmark? (desk : Desk σ) : Call σ ε δ → Option (Landmark σ ε δ)
  | .fresh _ _ => some .made
  | .load storage file naming version =>
    match (desk.load storage file naming version).1 with
    | .ok _ => some .loaded
    | .error _ => none
  | .save storage file =>
    match (desk.save storage file).1 with
    | .ok _ => some (.saved storage file)
    | .error _ => none
  | _ => none

end Desk

/-- A desk that is watched: as it is now, and as it was right after its latest landmark. -/
structure Watch (σ ε δ : Type) where
  desk : Desk σ
  landmark : Landmark σ ε δ
  mark : Desk σ

namespace Watch

/-- A landmark is set, and the desk is kept in mind as it is. -/
def reach (desk : Desk σ) (landmark : Landmark σ ε δ) : Watch σ ε δ := ⟨desk, landmark, desk⟩

/-- What the watch makes of a happening. -/
def take (w : Watch σ ε δ) : Happening σ ε δ → Watch σ ε δ
  | .call call =>
    match w.desk.landmark? call with
    | some landmark => reach (w.desk.call call).2 landmark
    | none => { w with desk := (w.desk.call call).2 }
  | .elsewhere state => { w with desk := { w.desk with state } }

/-- The watch over a desk from when its sheet is made. -/
def run (naming : Naming) (version : String) (state : σ) (happenings : List (Happening σ ε δ)) :
    Watch σ ε δ :=
  happenings.foldl take (reach ⟨.empty naming version, state⟩ .made)

/-- The watch follows the desk. -/
theorem desk_take (w : Watch σ ε δ) (happening : Happening σ ε δ) :
    (w.take happening).desk = w.desk.happen happening := by
  cases happening with
  | call call =>
    unfold take
    dsimp only
    cases w.desk.landmark? call <;> rfl
  | elsewhere state => rfl

/-- A saving that succeeds is a landmark. -/
theorem take_save_ok {w : Watch σ ε δ} {storage : Storage σ ε δ} {file : String} {desk : Desk σ}
    (h : w.desk.save storage file = (.ok (), desk)) :
    w.take (.call (.save storage file)) = reach desk (.saved storage file) := by
  unfold take Desk.landmark? Desk.call
  simp only [h]

theorem take_save_error {w : Watch σ ε δ} {storage : Storage σ ε δ} {file : String} {fault : ε}
    {desk : Desk σ} (h : w.desk.save storage file = (.error fault, desk)) :
    w.take (.call (.save storage file)) = { w with desk } := by
  unfold take Desk.landmark? Desk.call
  simp only [h]

/-- To watch a desk does not change what happens to it. -/
theorem desk_run (naming : Naming) (version : String) (state : σ)
    (happenings : List (Happening σ ε δ)) :
    (run naming version state happenings).desk
      = happenings.foldl Desk.happen ⟨.empty naming version, state⟩ :=
  (List.foldl_hom desk fun w happening => (desk_take w happening).symm).symm

end Watch

/-! ### Setting contents -/

/-- A content is refused, and the sheet has the cells and counts as it did; or it is taken, and the
sheet counts as changed. -/
theorem Sheet.Consistent.changed_setContents {sheet : Sheet} (h : sheet.Consistent) (name : Scalar)
    (raw : Option String) :
    (∃ refusal, (sheet.setContents name raw).1 = .error refusal
      ∧ (sheet.setContents name raw).2.cells = sheet.cells
      ∧ (sheet.setContents name raw).2.changed = sheet.changed)
    ∨ ∃ order, (sheet.setContents name raw).1 = .ok order
      ∧ (sheet.setContents name raw).2.changed = true := by
  rcases setContents_cases h name raw with ⟨refusal, -, heq⟩ | ⟨n, content, -, htried⟩
  · rw [heq]
    exact .inl ⟨refusal, rfl, rfl, rfl⟩
  · rcases htried with ⟨c, -, heq⟩ | ⟨order, -, heq⟩
    · rw [heq]
      exact .inl ⟨.circular c, rfl, rfl, rfl⟩
    · rw [heq]
      exact .inr ⟨order, rfl, rfl⟩

/-! ### The invariant

Between two landmarks the cells can change only when a content is taken, and from then on the sheet
counts as changed. What was written at a saving is read as it was, as the state stood then.
-/

namespace Watch

/-- What relates a desk to its latest landmark. -/
structure Sound (w : Watch σ ε δ) : Prop where
  consistent : w.desk.sheet.Consistent
  naming : w.desk.sheet.naming = w.mark.sheet.naming
  version : w.desk.sheet.version = w.mark.sheet.version
  cells : w.desk.sheet.changed = false → w.desk.sheet.cells = w.mark.sheet.cells
  stored : ∀ storage file, w.landmark = .saved storage file → storage.Faithful →
    storage.read w.mark.state file = .ok (w.mark.sheet.saved.map some)

namespace Sound

variable {w : Watch σ ε δ}

/-- A desk with a consistent sheet can be kept in mind as it is. -/
theorem reach {desk : Desk σ} {landmark : Landmark σ ε δ} (h : desk.sheet.Consistent)
    (hstored : ∀ storage file, landmark = .saved storage file → storage.Faithful →
      storage.read desk.state file = .ok (desk.sheet.saved.map some)) :
    Sound (reach desk landmark) :=
  ⟨h, rfl, rfl, fun _ => rfl, hstored⟩

/-- What becomes of the state alone is none of the sheet's business. -/
theorem elsewhere (h : Sound w) (state : σ) : Sound { w with desk := { w.desk with state } } :=
  ⟨h.consistent, h.naming, h.version, h.cells, h.stored⟩

/-- A content that is taken makes the sheet count as changed. -/
theorem setContents (h : Sound w) (name : Scalar) (raw : Option String) :
    Sound (w.take (.call (.set name raw))) := by
  obtain ⟨hnaming, hversion⟩ := Sheet.settings_setContents w.desk.sheet name raw
  refine ⟨h.consistent.setContents name raw, hnaming.trans h.naming, hversion.trans h.version, ?_,
    h.stored⟩
  intro hchanged
  rcases h.consistent.changed_setContents name raw with ⟨_, -, hcells, hsame⟩ | ⟨_, -, htrue⟩
  · exact hcells.trans (h.cells (hsame.symm.trans hchanged))
  · cases htrue.symm.trans hchanged

/-- A saving that succeeds relates the desk to itself, and one that fails changes no sheet. -/
theorem save (h : Sound w) (storage : Storage σ ε δ) (file : String) :
    Sound (w.take (.call (.save storage file))) := by
  rcases w.desk.save_cases storage file with ⟨fault, state, -, heq⟩ | ⟨state, hwrite, heq⟩
  · rw [take_save_error heq]
    exact h.elsewhere state
  · rw [take_save_ok heq]
    refine .reach h.consistent.unchanged ?_
    rintro _ _ ⟨⟩ hfaithful
    exact hfaithful _ _ _ _ hwrite

theorem load (h : Sound w) (storage : Storage σ ε δ) (file : String) (naming : Naming)
    (version : String) : Sound (w.take (.call (.load storage file naming version))) := by
  unfold take Desk.landmark? Desk.call
  rcases w.desk.load_cases storage file naming version with
    ⟨fault, -, heq⟩ | ⟨saved, fault, -, -, heq⟩ | ⟨saved, sheet, -, hload, heq⟩
  · simp only [heq]
    exact h
  · simp only [heq]
    exact h
  · simp only [heq]
    exact .reach (Sheet.Reachable.loaded hload).consistent nofun

/-- Whatever happens, the desk stays related to its latest landmark. -/
theorem take (h : Sound w) (happening : Happening σ ε δ) : Sound (w.take happening) := by
  cases happening with
  | elsewhere state => exact h.elsewhere state
  | call call =>
    cases call with
    | set name raw => exact h.setContents name raw
    | save storage file => exact h.save storage file
    | load storage file naming version => exact h.load storage file naming version
    | fresh naming version => exact .reach (Sheet.consistent_empty naming version) nofun
    -- All else asks for something and changes nothing.
    | _ => exact h

end Sound

/-- The relation holds from the making of the sheet on. -/
theorem sound_run (naming : Naming) (version : String) (state : σ)
    (happenings : List (Happening σ ε δ)) : Sound (run naming version state happenings) := by
  refine List.foldlRecOn happenings Watch.take ?_ fun w hw happening _ => hw.take happening
  exact .reach (Sheet.consistent_empty naming version) nofun

/-- An unchanged sheet that was saved last to what is stored still is loaded as it is. -/
theorem Sound.exists_loaded {w : Watch σ ε δ} (h : Sound w) {storage : Storage σ ε δ}
    {file : String} (hfaithful : storage.Faithful) (hlandmark : w.landmark = .saved storage file)
    (hchanged : w.desk.sheet.changed = false)
    (huntouched : storage.read w.desk.state file = storage.read w.mark.state file)
    (hnaming : Idempotent w.desk.sheet.naming) :
    ∃ loaded : Sheet,
      w.desk.load storage file w.desk.sheet.naming w.desk.sheet.version
          = (.ok (), { w.desk with sheet := loaded })
        ∧ loaded.cells = w.desk.sheet.cells ∧ loaded.changed = false := by
  have hsaved : w.mark.sheet.saved = w.desk.sheet.saved := by
    rw [Sheet.saved, Sheet.saved, h.cells hchanged, h.version]
  have hstored : storage.read w.desk.state file = .ok (w.desk.sheet.saved.map some) := by
    rw [huntouched, h.stored storage file hlandmark hfaithful, hsaved]
  obtain ⟨loaded, hload, hcells, hunchanged⟩ := Sheet.load_saved h.consistent hnaming
  exact ⟨loaded, Desk.load_of_stored hstored hload, hcells, hunchanged⟩

/-- Whatever happens to a desk, with whatever storages, a sheet that counts as unchanged has the very
cells that it had right after its latest landmark: when it was made, or loaded, or saved. A refused
content and a refused saving leave it counting as it did, and a refused saving leaves the desk as it was
if the storage leaves what is stored. If the landmark is its saving and what was stored then is there
still, the sheet is loaded as it is, from a storage that reads what was written. The files of a folder
are a storage of this kind. -/
theorem changed_sound (naming : Naming) (version : String) (state : σ)
    (happenings : List (Happening σ ε δ)) :
    (run naming version state happenings).desk
        = happenings.foldl Desk.happen ⟨.empty naming version, state⟩
    ∧ (∀ w, w = run naming version state happenings →
      (w.desk.sheet.changed = false → w.desk.sheet.cells = w.mark.sheet.cells)
      ∧ (∀ name raw refusal, (w.desk.setContents name raw).1 = .error refusal →
        (w.desk.setContents name raw).2.sheet.changed = w.desk.sheet.changed)
      ∧ (∀ (storage : Storage σ ε δ) file fault, (w.desk.save storage file).1 = .error fault →
        (w.desk.save storage file).2.sheet = w.desk.sheet
          ∧ (storage.Atomic → (w.desk.save storage file).2 = w.desk))
      ∧ ∀ storage file, storage.Faithful → w.landmark = .saved storage file →
        w.desk.sheet.changed = false →
        storage.read w.desk.state file = storage.read w.mark.state file →
        Idempotent w.desk.sheet.naming →
        ∃ loaded : Sheet,
          w.desk.load storage file w.desk.sheet.naming w.desk.sheet.version
              = (.ok (), { w.desk with sheet := loaded })
            ∧ loaded.cells = w.desk.sheet.cells ∧ loaded.changed = false)
    ∧ Storage.files.Faithful ∧ Storage.files.Atomic := by
  refine ⟨desk_run naming version state happenings, ?_, Storage.files_faithful,
    Storage.files_atomic⟩
  rintro w rfl
  have h := sound_run naming version state happenings
  refine ⟨h.cells, ?_, ?_, fun storage file => h.exists_loaded⟩
  · intro name raw refusal hrefused
    rcases h.consistent.changed_setContents name raw with ⟨_, -, -, hsame⟩ | ⟨order, hok, -⟩
    · exact hsame
    · cases hok.symm.trans hrefused
  · intro storage file fault hrefused
    rcases Desk.save_cases storage (run naming version state happenings).desk file with
      ⟨_, state', hwrite, heq⟩ | ⟨_, -, heq⟩
    · rw [heq]
      refine ⟨rfl, fun hatomic => ?_⟩
      rw [hatomic _ _ _ _ _ hwrite]
    · rw [heq] at hrefused
      cases hrefused

/-- A sheet is saved to the one file of a folder that can be written. Then a formula that closes a cycle
and a saving to another file are refused, and the sheet is loaded as it is. -/
theorem changed_sound_refused :
    ∃ w : Watch Folder SaveFault ReadFault, w.landmark = .saved .files "kept.xml"
      ∧ w.desk.sheet.cells.names = ["B1"]
      ∧ (w.desk.setContents (.text "A1") (some "=B1")).2.sheet.changed = false
      ∧ (w.desk.save .files "other.xml").2 = w.desk
      ∧ w.desk.sheet.cells = w.mark.sheet.cells
      ∧ ∃ loaded : Sheet,
        w.desk.load .files "kept.xml" w.desk.sheet.naming w.desk.sheet.version
            = (.ok (), { w.desk with sheet := loaded })
          ∧ loaded.cells = w.desk.sheet.cells ∧ loaded.changed = false := by
  obtain ⟨folder, hfolder⟩ : ∃ folder, folder = Folder.empty (· == "kept.xml") := ⟨_, rfl⟩
  obtain ⟨sheet, hsheet⟩ : ∃ sheet, sheet
      = ((Sheet.empty .standard "1").setContents (.text "B1") (some "=A1")).2 := ⟨_, rfl⟩
  have hsaved : sheet.saved = ⟨"1", [("B1", "=A1")]⟩ := by
    rw [hsheet]
    cbv
  have hstorable : sheet.saved.Storable := by
    rw [hsaved]
    exact Saved.check_eq_ok_iff.mp (by cbv)
  obtain ⟨kept, hkept, hwritten⟩ : ∃ kept : Folder, kept.writable "other.xml" = false
      ∧ Desk.save .files ⟨sheet, folder⟩ "kept.xml"
        = (.ok (), ⟨{ sheet with changed := false }, kept⟩) := by
    refine ⟨folder.put "kept.xml" sheet.saved.render, by rw [hfolder]; rfl, ?_⟩
    apply Desk.save_of_written
    exact Folder.write_of_storable (by decide) (by rw [hfolder]; rfl) hstorable
  have hrefused : Desk.save .files ⟨{ sheet with changed := false }, kept⟩ "other.xml"
      = (.error .unwritable, ⟨{ sheet with changed := false }, kept⟩) := by
    apply Desk.save_of_refused
    exact Folder.write_of_unwritable (by decide) hkept hstorable
  -- The two calls of the run, one after the other.
  obtain ⟨made, hmade⟩ : ∃ made : Watch Folder SaveFault ReadFault,
      made = ⟨⟨sheet, folder⟩, .made, ⟨.empty .standard "1", folder⟩⟩ := ⟨_, rfl⟩
  have hset : (reach ⟨.empty .standard "1", folder⟩ .made).take
      (.call (.set (.text "B1") (some "=A1"))) = made := by
    rw [hmade, hsheet]
    rfl
  have hsaves : made.take (.call (.save .files "kept.xml"))
      = reach ⟨{ sheet with changed := false }, kept⟩ (.saved .files "kept.xml") := by
    apply take_save_ok
    rw [hmade]
    exact hwritten
  have hrun : reach ⟨{ sheet with changed := false }, kept⟩ (.saved .files "kept.xml")
      = run .standard "1" folder
        [.call (.set (.text "B1") (some "=A1")), .call (.save .files "kept.xml")] := by
    rw [run, List.foldl_cons, hset, List.foldl_cons, hsaves, List.foldl_nil]
  obtain ⟨-, hwatch, hfaithful, hatomic⟩ := changed_sound .standard "1" folder _
  obtain ⟨hcells, hset, hsave, hload⟩ := hwatch _ hrun
  have hnames : sheet.cells.names = ["B1"] := by
    rw [hsheet]
    cbv
  have hcircular : (Sheet.setContents { sheet with changed := false } (.text "A1") (some "=B1")).1
      = .error (.circular "A1") := by
    rw [hsheet]
    cbv
  have hidempotent : Idempotent sheet.naming := by
    rw [hsheet, (Sheet.settings_setContents _ _ _).1]
    exact fun _ => rfl
  exact ⟨_, rfl, hnames, hset _ _ _ hcircular,
    (hsave .files "other.xml" .unwritable (by rw [reach, hrefused])).2 hatomic, hcells rfl,
    hload .files "kept.xml" hfaithful rfl rfl rfl hidempotent⟩

end Watch

end Worksheet
