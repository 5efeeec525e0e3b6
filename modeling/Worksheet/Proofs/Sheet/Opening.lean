import Worksheet.Proofs.Sheet.Desk
import Worksheet.Proofs.Sheet.Loading
import Worksheet.Proofs.Xml.Encoding

/-!
# How a failure to load is reported

When no sheet is loaded from a file, that is reported as a failure to read it, whether the file is
missing, its document is malformed or lacks an element, or its cells cannot be set. There are two
exceptions, which are reported as they are: a name with a null character, and a document that names
an encoding that is not known or cannot be used.

* `Folder.Misencoded`: the file names such an encoding.
* `Desk.load_reported`: no other failure is reported otherwise.
-/

namespace Worksheet

open Worksheet.Xml (EncodingFault Declares Unsupported)

/-- The file can be opened, and names an encoding with which something is wrong. -/
def Folder.Misencoded (folder : Folder) (file : String) (fault : EncodingFault) : Prop :=
  ∃ bytes name, folder.bytesOf file = .ok bytes ∧ Declares bytes name ∧ Unsupported name fault

/-! ### Documents

A document that has been read as markup may still lack what a saved sheet has. Only markup itself
can name an encoding, so nothing but faults of reading is left then.
-/

/-- What a document lacks is a fault of reading. -/
theorem Saved.ofReading_of_ofElement {root : Xml.Element} {fault : ReadFault}
    (h : ofElement root = .error fault) : fault.ofReading = true := by
  unfold ofElement at h
  split at h
  · split at h
    · cases h
      rfl
    · rcases bind_eq_error.mp h with h | ⟨cells, -, h⟩
      · obtain ⟨e, -, hcell⟩ := exists_of_mapM_eq_error h
        unfold ofCell at hcell
        split at hcell
        · cases hcell
          rfl
        · split at hcell
          · cases hcell
            rfl
          · cases hcell
      · cases h
  · cases h
    rfl

namespace Folder

variable {folder : Folder} {file : String}

/-- A name with a null character opens no file. -/
theorem read_of_null (h : '\x00' ∈ file.toList) : folder.read file = .error .nullInName := by
  rw [read, bytesOf, if_pos h]
  rfl

/-- Of a file that can be opened, the bytes decide. -/
theorem read_of_bytes {bytes : List UInt8} (h : folder.bytesOf file = .ok bytes) :
    folder.read file = Saved.read bytes := by
  rw [read, h]
  rfl

/-- An encoding that cannot be used is reported as such. -/
theorem read_of_misencoded {e : EncodingFault} (h : folder.Misencoded file e) :
    folder.read file = .error (.unreadable (.encoding e)) := by
  obtain ⟨bytes, name, hbytes, hdeclares, hunsupported⟩ := h
  have hread : Xml.read bytes = .error (.encoding e) :=
    Xml.read_eq_encoding_iff.mpr ⟨name, hdeclares, hunsupported⟩
  rw [read_of_bytes hbytes, Saved.read, hread]

/-- A file that cannot be opened has a null character in its name, or that is a fault of reading. -/
theorem bytesOf_reported {fault : ReadFault} (h : folder.bytesOf file = .error fault) :
    fault.ofReading = true ∨ '\x00' ∈ file.toList := by
  unfold bytesOf at h
  split at h
  · next hnull => exact .inr hnull
  · split at h
    · cases h
    · cases h
      exact .inl rfl

/-- A file is refused with a fault of reading, unless its name holds a null character, or it names an
encoding with which something is wrong. -/
theorem read_reported {fault : ReadFault} (h : folder.read file = .error fault) :
    fault.ofReading = true ∨ '\x00' ∈ file.toList ∨ ∃ e, folder.Misencoded file e := by
  cases hbytes : folder.bytesOf file with
  | error fault' =>
    rw [read, hbytes] at h
    cases h
    exact (bytesOf_reported hbytes).imp_right .inl
  | ok bytes =>
    rw [read_of_bytes hbytes, Saved.read] at h
    split at h
    · exact .inl (Saved.ofReading_of_ofElement h)
    · next xmlFault hread =>
      cases h
      cases xmlFault with
      | malformed => exact .inl rfl
      | encoding e =>
        obtain ⟨name, hdeclares, hunsupported⟩ := Xml.read_eq_encoding_iff.mp hread
        exact .inr (.inr ⟨e, bytes, name, hbytes, hdeclares, hunsupported⟩)

end Folder

/-! ### Desks -/

namespace Desk

variable {desk : Desk Folder} {file : String}

/-- What cannot be read from a file cannot be loaded from it, for the same fault. -/
theorem load_of_unreadable {fault : ReadFault} (naming : Naming) (version : String)
    (h : desk.state.read file = .error fault) :
    desk.load .files file naming version = (.error (.storage fault), desk) := by
  apply load_of_missing
  rw [Storage.read_files, h]
  rfl

/-- A fault that is not one of reading comes from the name of the file, or from the encoding that it
names. -/
theorem null_or_misencoded_of_load {naming : Naming} {version : String}
    {fault : OpenFault ReadFault} (h : (desk.load .files file naming version).1 = .error fault)
    (hreport : fault.ofReading = false) :
    '\x00' ∈ file.toList ∨ ∃ e, desk.state.Misencoded file e := by
  cases hread : desk.state.read file with
  | error readFault =>
    rw [load_of_unreadable naming version hread] at h
    cases h
    exact (Folder.read_reported hread).resolve_left fun hreading => by
      cases hreport.symm.trans hreading
  | ok texts =>
    have hstored : Storage.files.read desk.state file = .ok (texts.map some) := by
      rw [Storage.read_files, hread]
      rfl
    cases hload : Sheet.load naming version (texts.map some) with
    | ok sheet =>
      rw [load_of_stored hstored hload] at h
      cases h
    | error loadFault =>
      -- Texts are all that a file holds, so what is wrong with them is wrong with the file.
      rw [load_of_refused hstored hload] at h
      cases h
      cases hreport.symm.trans (Sheet.ofSaved_of_load hload)

/-- From whatever file, a sheet is loaded, or the desk stays as it was and is told a fault. The fault
is reported as one of reading, unless the name of the file holds a null character, or the file names an
encoding that is not known or cannot be used; what is wrong with the name or the encoding is reported
then. -/
theorem load_reported (desk : Desk Folder) (file : String) (naming : Naming) (version : String) :
    ((∃ sheet, desk.load .files file naming version = (.ok (), { desk with sheet }))
      ∨ ∃ fault, desk.load .files file naming version = (.error fault, desk))
    ∧ ((∃ fault, (desk.load .files file naming version).1 = .error fault ∧ fault.ofReading = false)
      ↔ '\x00' ∈ file.toList ∨ ∃ e, desk.state.Misencoded file e)
    ∧ ('\x00' ∈ file.toList →
      desk.load .files file naming version = (.error (.storage .nullInName), desk))
    ∧ ∀ e, desk.state.Misencoded file e →
      desk.load .files file naming version
        = (.error (.storage (.unreadable (.encoding e))), desk) := by
  have hnull : '\x00' ∈ file.toList →
      desk.load .files file naming version = (.error (.storage .nullInName), desk) :=
    fun h => load_of_unreadable naming version (Folder.read_of_null h)
  have hmisencoded : ∀ e, desk.state.Misencoded file e → desk.load .files file naming version
      = (.error (.storage (.unreadable (.encoding e))), desk) :=
    fun e h => load_of_unreadable naming version (Folder.read_of_misencoded h)
  refine ⟨?_, ⟨?_, ?_⟩, hnull, hmisencoded⟩
  · rcases desk.load_cases .files file naming version with
      ⟨fault, -, heq⟩ | ⟨saved, fault, -, -, heq⟩ | ⟨saved, sheet, -, -, heq⟩
    · exact .inr ⟨.storage fault, heq⟩
    · exact .inr ⟨.sheet fault, heq⟩
    · exact .inl ⟨sheet, heq⟩
  · rintro ⟨fault, hload, hreport⟩
    exact null_or_misencoded_of_load hload hreport
  · rintro (h | ⟨e, h⟩)
    · exact ⟨_, congrArg Prod.fst (hnull h), rfl⟩
    · exact ⟨_, congrArg Prod.fst (hmisencoded e h), rfl⟩

/-- A file whose encoding takes several bytes for some characters is reported otherwise, and so is a name
with a null character; a file that is missing is not. -/
theorem load_reported_multibyte :
    ∃ desk : Desk Folder,
      desk.load .files "book.xml" .standard "1"
          = (.error (.storage (.unreadable (.encoding .multibyte))), desk)
        ∧ desk.load .files "a\x00b" .standard "1" = (.error (.storage .nullInName), desk)
        ∧ ¬ ∃ fault, (desk.load .files "other.xml" .standard "1").1 = .error fault
          ∧ fault.ofReading = false := by
  have hfind : Xml.Charset.find? "Shift_JIS".toList = some .multibyte := by decide +kernel
  have hunsupported : Unsupported "Shift_JIS".toList .multibyte :=
    ⟨by decide, by rw [hfind]; exact .multibyte⟩
  obtain ⟨folder, hbook, hother⟩ : ∃ folder : Folder, folder.Misencoded "book.xml" .multibyte
      ∧ folder.bytesOf "other.xml" = .error .missingFile :=
    ⟨⟨Table.empty.insert "book.xml"
        ("<?xml version='1.0' encoding='Shift_JIS'?><spreadsheet version='1'/>".toList.map
          fun c => UInt8.ofNat c.toNat), fun _ => true⟩,
      ⟨_, _, rfl, ⟨_, _, rfl, rfl⟩, hunsupported⟩, rfl⟩
  obtain ⟨-, -, -, hload⟩ := load_reported ⟨.empty .standard "1", folder⟩ "book.xml" .standard "1"
  obtain ⟨-, -, hnull, -⟩ := load_reported ⟨.empty .standard "1", folder⟩ "a\x00b" .standard "1"
  obtain ⟨-, hreport, -, -⟩ :=
    load_reported ⟨.empty .standard "1", folder⟩ "other.xml" .standard "1"
  refine ⟨_, hload .multibyte hbook, hnull (by decide), ?_⟩
  rw [hreport]
  rintro (h | ⟨e, bytes, name, hfound, -⟩)
  · revert h
    decide
  · cases hother.symm.trans hfound

/-- A file whose encoding is not known is not reported as a failure to read it. -/
theorem load_unknown_encoding :
    ∃ fault,
      (load .files ⟨.empty .standard "default", ⟨Table.empty.insert "book.xml"
          ("<?xml version='1.0' encoding='foo'?><spreadsheet version='1'/>".toList.map
            fun c => UInt8.ofNat c.toNat), fun _ => true⟩⟩ "book.xml" .standard "default").1
        = .error fault ∧ fault.ofReading = false := by
  have hfind : Xml.Charset.find? "foo".toList = none := by decide +kernel
  have hunsupported : Unsupported "foo".toList .unknown :=
    ⟨by decide, by rw [hfind]; exact .unknown⟩
  refine ⟨.storage (.unreadable (.encoding .unknown)), ?_, rfl⟩
  rw [load_of_unreadable .standard "default"
    (Folder.read_of_misencoded ⟨_, _, rfl, ⟨_, _, rfl, rfl⟩, hunsupported⟩)]

end Desk

end Worksheet
