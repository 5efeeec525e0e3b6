import Worksheet.Sheet.File

/-!
# Storing sheets

A storage writes saved sheets under names and reads them again; what it holds is its state. Saving a
sheet writes what is to be kept of it, and loading reads that and sets the cells again.

`Storage.files` keeps documents in the files of a folder, and `Storage.shelf` saved sheets as they
are. A desk holds a sheet and the state of whatever it is saved to and loaded from; which storage
works on that state is told with each call.
-/

namespace Worksheet

/-- Writes saved sheets under names into a state of type `σ` and reads them from it. Writing leaves
some state behind even if it fails. -/
structure Storage (σ ε δ : Type) where
  write : σ → String → Saved String → Except ε Unit × σ
  read : σ → String → Except δ (Saved (Option String))

/-! ### Folders -/

/-- The files of a folder that can be read, under their names, and the names under which files can be
written. -/
structure Folder where
  files : Table (List UInt8)
  writable : String → Bool

/-- Why a sheet is not saved. -/
inductive SaveFault where
  | unstorable (u : Unstorable)
  | nullInName
  | unwritable
deriving Repr, DecidableEq

/-- The wording of the fault. -/
def SaveFault.message : SaveFault → String
  | unstorable u => u.message
  | nullInName => "embedded null byte"
  | unwritable => "Cannot write"

/-- Whether the fault is reported as one of writing. A null character in a name is reported as it
is. -/
def SaveFault.ofWriting : SaveFault → Bool
  | nullInName => false
  | _ => true

namespace Folder

/-- The folder without files. -/
def empty (writable : String → Bool) : Folder := ⟨.empty, writable⟩

/-- Puts a text into a file. -/
def put (folder : Folder) (name : String) (text : String) : Folder :=
  { folder with files := folder.files.insert name text.toUTF8.data.toList }

/-- The bytes of a file. No name of a file holds a null character, and one that does is refused before
any file is looked for. -/
def bytesOf (folder : Folder) (name : String) : Except ReadFault (List UInt8) :=
  if '\x00' ∈ name.toList then .error .nullInName
  else
    match folder.files.find? name with
    | some bytes => .ok bytes
    | none => .error .missingFile

/-- The text of a file, if there is one and it is text. -/
def textOf? (folder : Folder) (name : String) : Option String :=
  (folder.files.find? name).bind fun bytes => String.fromUTF8? ⟨bytes.toArray⟩

/-- Writes a saved sheet to a file. The document is made first, so what no document can hold is refused
before the file is opened. -/
def write (folder : Folder) (name : String) (saved : Saved String) :
    Except SaveFault Unit × Folder :=
  match saved.write with
  | .error u => (.error (.unstorable u), folder)
  | .ok text =>
    if '\x00' ∈ name.toList then (.error .nullInName, folder)
    else if folder.writable name then (.ok (), folder.put name text)
    else (.error .unwritable, folder)

/-- The saved sheet in a file. -/
def read (folder : Folder) (name : String) : Except ReadFault (Saved String) := do
  let bytes ← folder.bytesOf name
  Saved.read bytes

end Folder

/-! ### Shelves -/

/-- Saved sheets under their names. -/
abbrev Shelf := Table (Saved (Option String))

/-- Nothing is kept under a name. -/
structure Missing where
  name : String
deriving Repr, DecidableEq

/-- The wording of the fault. -/
def Missing.message (fault : Missing) : String := "no such file " ++ fault.name

namespace Storage

/-- Saved sheets as documents in the files of a folder. -/
def files : Storage Folder SaveFault ReadFault where
  write := Folder.write
  read folder file := (folder.read file).map (Saved.map some)

/-- Saved sheets kept as they are. -/
def shelf : Storage Shelf Empty Missing where
  write kept file saved := (.ok (), kept.insert file (saved.map some))
  read kept file :=
    match kept.find? file with
    | some saved => .ok saved
    | none => .error ⟨file⟩

end Storage

/-! ### Saving and loading -/

/-- Why no sheet is loaded: nothing can be read, or what is read cannot be made a sheet. -/
inductive OpenFault (δ : Type) where
  | storage (fault : δ)
  | sheet (fault : LoadFault)
deriving DecidableEq

/-- Whether the fault of loading a sheet from a file is reported as one of reading. -/
def OpenFault.ofReading : OpenFault ReadFault → Bool
  | storage fault => fault.ofReading
  | sheet fault => fault.ofSaved

variable {σ ε δ : Type}

namespace Sheet

/-- Saves a sheet. If that succeeds, it counts as unchanged. -/
def save (storage : Storage σ ε δ) (state : σ) (file : String) (sheet : Sheet) :
    Except ε Unit × σ × Sheet :=
  match storage.write state file sheet.saved with
  | (.ok (), state) => (.ok (), state, { sheet with changed := false })
  | (.error fault, state) => (.error fault, state, sheet)

/-- Loads what is saved under a name. -/
def openSaved (storage : Storage σ ε δ) (state : σ) (file : String) (naming : Naming)
    (version : String) : Except (OpenFault δ) Sheet :=
  match storage.read state file with
  | .ok saved => (load naming version saved).mapError .sheet
  | .error fault => .error (.storage fault)

/-- The version of what is saved under a name. -/
def savedVersion (storage : Storage σ ε δ) (state : σ) (file : String) : Except δ String :=
  (storage.read state file).map Saved.version

end Sheet

/-! ### Desks -/

/-- A sheet, and the state of what it is saved to and loaded from. -/
structure Desk (σ : Type) where
  sheet : Sheet
  state : σ

namespace Desk

/-- Sets the content of a cell of the sheet. -/
def setContents (desk : Desk σ) (name : Scalar) (raw : Option String) :
    Except Refusal (List String) × Desk σ :=
  let (result, sheet) := desk.sheet.setContents name raw
  (result, { desk with sheet })

/-- Saves the sheet. -/
def save (storage : Storage σ ε δ) (desk : Desk σ) (file : String) : Except ε Unit × Desk σ :=
  let (result, state, sheet) := desk.sheet.save storage desk.state file
  (result, ⟨sheet, state⟩)

/-- Loads a sheet in the place of the present one. If that fails, the present one stays. -/
def load (storage : Storage σ ε δ) (desk : Desk σ) (file : String) (naming : Naming)
    (version : String) : Except (OpenFault δ) Unit × Desk σ :=
  match Sheet.openSaved storage desk.state file naming version with
  | .ok sheet => (.ok (), { desk with sheet })
  | .error fault => (.error fault, desk)

end Desk
end Worksheet
