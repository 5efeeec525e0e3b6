import Worksheet.Proofs.Sheet.File
import Worksheet.Sheet.Storage

/-!
# Storages that read what was written

What a storage owes to those who use it: it reads what was written last, and what it refuses leaves it
as it was. Folders and shelves do so. A shelf takes every saved sheet; a folder refuses those with
characters that no document can hold.

* `Storage.Faithful`, `Storage.Atomic`: the two laws; `files_faithful`, `files_atomic`,
  `shelf_faithful` and `shelf_atomic` say that they hold.
* `Folder.write_storable`: what a folder takes, what is read then, and what it refuses.
-/

namespace Worksheet

variable {σ ε δ : Type}

namespace Storage

/-- What is read under a name is what was written last under it. -/
def Faithful (storage : Storage σ ε δ) : Prop :=
  ∀ state file saved state', storage.write state file saved = (.ok (), state') →
    storage.read state' file = .ok (saved.map some)

/-- A writing that fails leaves the state as it was. -/
def Atomic (storage : Storage σ ε δ) : Prop :=
  ∀ state file saved fault state', storage.write state file saved = (.error fault, state') →
    state' = state

/-- A shelf reads what it was given. -/
theorem shelf_faithful : Faithful shelf := by
  intro kept file saved kept' h
  cases h
  unfold shelf
  dsimp only
  rw [Table.find?_insert, if_pos rfl]

/-- A shelf refuses nothing. -/
theorem shelf_atomic : Atomic shelf := by
  intro kept file saved fault
  cases fault

end Storage

namespace Folder

variable {folder folder' : Folder} {file : String} {saved : Saved String}

/-! ### Writing

The document is made before the file is opened, so a sheet that no document can hold is refused for
that, whatever the name of the file. A file whose name holds a null character cannot be opened for
reading or for writing, on any system.
-/

theorem find?_put (folder : Folder) (file text : String) :
    (folder.put file text).files.find? file = some text.toUTF8.data.toList := by
  rw [put, Table.find?_insert, if_pos rfl]

/-- Nothing is written, for a character of the sheet or for the name of the file, and the folder stays
as it was; or the document is put into the file. -/
theorem write_cases (folder : Folder) (file : String) (saved : Saved String) :
    (∃ fault, folder.write file saved = (.error fault, folder))
    ∨ (saved.check = .ok () ∧ '\x00' ∉ file.toList ∧ folder.writable file = true
        ∧ folder.write file saved = (.ok (), folder.put file saved.render)) := by
  have hwrite : saved.write = saved.check >>= fun _ => pure saved.render := rfl
  unfold write
  rw [hwrite]
  cases saved.check with
  | error u => exact .inl ⟨.unstorable u, rfl⟩
  | ok _ =>
    by_cases hnull : '\x00' ∈ file.toList
    · exact .inl ⟨.nullInName, if_pos hnull⟩
    · by_cases hfile : folder.writable file = true
      · exact .inr ⟨rfl, hnull, hfile, (if_neg hnull).trans (if_pos hfile)⟩
      · exact .inl ⟨.unwritable, (if_neg hnull).trans (if_neg hfile)⟩

/-- Of a sheet that a document can hold, the document is made. -/
theorem write_eq_ok (h : saved.Storable) : saved.write = .ok saved.render := by
  rw [Saved.write, Saved.check_eq_ok_iff.mpr h]
  rfl

/-- The document is put into a file that can be written. -/
theorem write_of_storable (hnull : '\x00' ∉ file.toList) (hfile : folder.writable file = true)
    (h : saved.Storable) : folder.write file saved = (.ok (), folder.put file saved.render) := by
  rw [write, write_eq_ok h]
  exact (if_neg hnull).trans (if_pos hfile)

theorem write_of_unwritable (hnull : '\x00' ∉ file.toList) (hfile : folder.writable file = false)
    (h : saved.Storable) : folder.write file saved = (.error .unwritable, folder) := by
  rw [write, write_eq_ok h]
  exact (if_neg hnull).trans (if_neg (by simp [hfile]))

/-- A sheet that no document can hold is refused with its first such character. -/
theorem write_of_isFirstBad {u : Unstorable} (h : saved.IsFirstBad u) :
    folder.write file saved = (.error (.unstorable u), folder) := by
  have hwrite : saved.write = .error u := by
    rw [Saved.write, Saved.check_eq_error_iff.mpr h]
    rfl
  rw [write, hwrite]

/-- Writing the same once more leaves the folder as it is. -/
theorem write_again (h : folder.write file saved = (.ok (), folder')) :
    folder'.write file saved = (.ok (), folder') := by
  rcases folder.write_cases file saved with ⟨fault, hrefused⟩ | ⟨hcheck, hnull, hfile, hwritten⟩
  · cases hrefused.symm.trans h
  · cases hwritten.symm.trans h
    have hfound := find?_put folder file saved.render
    have hfile' : (folder.put file saved.render).writable file = true := hfile
    rw [write_of_storable hnull hfile' (Saved.check_eq_ok_iff.mp hcheck)]
    refine Prod.ext rfl ?_
    exact congrArg (Folder.mk · folder.writable) (Table.insert_of_find? hfound)

/-! ### Reading -/

/-- A file can be opened if there is one of that name, which holds no null character. -/
theorem bytesOf_eq_ok {bytes : List UInt8} :
    folder.bytesOf file = .ok bytes ↔ '\x00' ∉ file.toList ∧ folder.files.find? file = some bytes := by
  unfold bytesOf
  by_cases hnull : '\x00' ∈ file.toList
  · simp [hnull]
  · cases folder.files.find? file <;> simp [hnull]

/-- What has been put into a file is read from it, if a document can hold it. -/
theorem read_put (hnull : '\x00' ∉ file.toList) (h : saved.Storable) :
    (folder.put file saved.render).read file = .ok saved := by
  rw [read, bytesOf_eq_ok.mpr ⟨hnull, find?_put folder file saved.render⟩]
  exact Saved.read_render (Saved.check_eq_ok_iff.mpr h)

/-- A saved sheet that no document can hold has a first character that none can. -/
theorem exists_isFirstBad (h : ¬ saved.Storable) : ∃ u, saved.IsFirstBad u := by
  cases hcheck : saved.check with
  | ok _ => exact absurd (Saved.check_eq_ok_iff.mp hcheck) h
  | error u => exact ⟨u, Saved.check_eq_error_iff.mp hcheck⟩

/-- A saved sheet is written to a file if and only if a document can hold all of its characters. What
is read then is what was written, and the other files are as they were. Otherwise the first character
that no document can hold is reported, and the folder is as it was. -/
theorem write_storable (folder : Folder) {file : String} (hnull : '\x00' ∉ file.toList)
    (hfile : folder.writable file = true) (saved : Saved String) :
    ((folder.write file saved).1 = .ok () ↔ saved.Storable)
    ∧ (saved.Storable → (folder.write file saved).2.read file = .ok saved
      ∧ ∀ other, other ≠ file →
        (folder.write file saved).2.files.find? other = folder.files.find? other)
    ∧ (¬ saved.Storable → ∃ u, saved.IsFirstBad u
      ∧ folder.write file saved = (.error (.unstorable u), folder)) := by
  refine ⟨⟨?_, ?_⟩, ?_, ?_⟩
  · intro hwritten
    by_contra h
    obtain ⟨u, hu⟩ := exists_isFirstBad h
    rw [write_of_isFirstBad hu] at hwritten
    cases hwritten
  · intro h
    rw [write_of_storable hnull hfile h]
  · intro h
    rw [write_of_storable hnull hfile h]
    refine ⟨read_put hnull h, ?_⟩
    intro other hother
    rw [put, Table.find?_insert, if_neg hother]
  · intro h
    obtain ⟨u, hu⟩ := exists_isFirstBad h
    exact ⟨u, hu, write_of_isFirstBad hu⟩

/-- Markup, line ends of every kind and empty texts are read as they were written, and a control
character is refused, in a folder where only one file can be written. -/
theorem write_storable_markup :
    (∃ folder, (Folder.empty (· == "sheet.xml")).write "sheet.xml"
          ⟨" \t\r\n", [("", "]]>\r"), ("a&b", "<x>"), ("", "")]⟩ = (.ok (), folder)
      ∧ folder.read "sheet.xml" = .ok ⟨" \t\r\n", [("", "]]>\r"), ("a&b", "<x>"), ("", "")]⟩)
    ∧ (Folder.empty (· == "sheet.xml")).write "sheet.xml" ⟨"1", [("A1", "a\u0001")]⟩
        = (.error (.unstorable ⟨'\u0001', .contents "A1"⟩), .empty (· == "sheet.xml")) := by
  have hnull : '\x00' ∉ "sheet.xml".toList := by decide
  have hfile : (Folder.empty (· == "sheet.xml")).writable "sheet.xml" = true := by decide
  constructor
  · have hstorable : Saved.Storable ⟨" \t\r\n", [("", "]]>\r"), ("a&b", "<x>"), ("", "")]⟩ :=
      Saved.check_eq_ok_iff.mp (by cbv)
    obtain ⟨hwritten, hread, -⟩ := write_storable _ hnull hfile _
    exact ⟨_, Prod.ext (hwritten.mpr hstorable) rfl, (hread hstorable).1⟩
  · have hbad : Saved.check ⟨"1", [("A1", "a\u0001")]⟩ = .error ⟨'\u0001', .contents "A1"⟩ := by cbv
    have hrefused : ¬ Saved.Storable ⟨"1", [("A1", "a\u0001")]⟩ := by
      rw [← Saved.check_eq_ok_iff, hbad]
      intro h
      cases h
    obtain ⟨u, hu, hwritten⟩ := (write_storable _ hnull hfile _).2.2 hrefused
    rw [hwritten]
    rw [← Saved.check_eq_error_iff, hbad] at hu
    cases hu
    rfl

end Folder

/-! ### The laws of folders

Both laws are read off `write_cases`: either nothing has been written, or the document has been put
into the file.
-/

namespace Storage

/-- A file always holds texts, so what is read from it has no contents missing. -/
theorem read_files (folder : Folder) (file : String) :
    files.read folder file = (folder.read file).map (Saved.map some) := rfl

/-- A folder reads what was written last to a file. -/
theorem files_faithful : Faithful files := by
  intro folder file saved folder' h
  rcases folder.write_cases file saved with ⟨fault, hrefused⟩ | ⟨hcheck, hnull, -, hwritten⟩
  · cases hrefused.symm.trans h
  · cases hwritten.symm.trans h
    rw [read_files, Folder.read_put hnull (Saved.check_eq_ok_iff.mp hcheck)]
    rfl

/-- A folder is left as it was by what it refuses. -/
theorem files_atomic : Atomic files := by
  intro folder file saved fault folder' h
  rcases folder.write_cases file saved with ⟨_, hrefused⟩ | ⟨-, -, -, hwritten⟩
  · cases hrefused.symm.trans h
    rfl
  · cases hwritten.symm.trans h

end Storage

end Worksheet
