import Worksheet.Proofs.Result
import Worksheet.Xml.Source

/-!
# Declared texts

The bytes of a text in UTF-8 behind a declaration that names UTF-8 are read as the text.

* `decodeUtf8_toUTF8`: the bytes of a text are decoded to the text.
* `read_declared`: so are those of a text behind the declaration.
-/

namespace Worksheet.Xml.Source

/-- The declaration of a document in UTF-8. -/
def declaration : List Char := "<?xml version='1.0' encoding='utf-8'?>".toList

/-- The bytes of a text are decoded to the text. -/
theorem decodeUtf8_toUTF8 (s : String) : decodeUtf8 s.toUTF8.data.toList = some s.toList := by
  have hbytes : (⟨s.toUTF8.data.toList.toArray⟩ : ByteArray) = s.toByteArray := by
    rw [Array.toArray_toList]
    rfl
  rw [decodeUtf8, hbytes, String.fromUTF8?, dif_pos s.isValidUTF8]
  rfl

/-- The declaration has one byte for each character. -/
theorem toUTF8_declaration (cs : List Char) :
    (String.ofList (declaration ++ cs)).toUTF8.data.toList
      = declaration.map (fun c => UInt8.ofNat c.toNat)
        ++ (String.ofList cs).toUTF8.data.toList := by
  rw [String.ofList_append, String.toUTF8_eq_toByteArray, String.toByteArray_append,
    ByteArray.data_append, Array.toList_append]
  rfl

/-- The declaration names its encoding, and does not say that the document stands alone. -/
theorem scan?_declaration (rest : List Char) :
    Declaration.scan? (declaration ++ rest) = some (some ⟨some "utf-8".toList, false⟩, rest) := rfl

/-- The encoding that the declaration names is known. -/
theorem named_utf8 : named .octets "utf-8".toList = .ok ⟨decodeUtf8, .plain⟩ := by
  have hupper : String.ofList ("utf-8".toList.map Char.toUpper) = "UTF-8" := by decide
  unfold named
  rw [hupper]
  rfl

/-- A text behind the declaration is read as it is, unless its line ends change. -/
theorem read_declared {cs : List Char} (hchars : ∀ c ∈ cs, isChar c = true) (hreturn : '\r' ∉ cs) :
    read (String.ofList (declaration ++ cs)).toUTF8.data.toList = .ok ⟨.plain, false, cs⟩ := by
  let bytes := (String.ofList cs).toUTF8.data.toList
  have hdetect : detect (declaration.map (fun c => UInt8.ofNat c.toNat) ++ bytes)
      = (.octets, declaration.map (fun c => UInt8.ofNat c.toNat) ++ bytes) := rfl
  have hstart : (values .octets (declaration.map (fun c => UInt8.ofNat c.toNat) ++ bytes)).map
      Char.ofNat = declaration ++ (values .octets bytes).map Char.ofNat := by
    rw [values, List.map_append, List.map_append]
    rfl
  have hlength : (declaration ++ (values .octets bytes).map Char.ofNat).length
      - ((values .octets bytes).map Char.ofNat).length
      = (declaration.map (fun c => UInt8.ofNat c.toNat)).length := by
    rw [List.length_append, Nat.add_sub_cancel, List.length_map]
  have hdecode : decodeUtf8 bytes = some cs := by
    rw [decodeUtf8_toUTF8, String.toList_ofList]
  rw [toUTF8_declaration, read, hdetect]
  simp only [hstart, scan?_declaration, Option.bind_some, named_utf8]
  refine bind_eq_ok.mpr ⟨_, rfl, ?_⟩
  rw [unitBytes, hlength, List.drop_left]
  simp only [hdecode]
  rw [if_pos (List.all_eq_true.mpr hchars), unifyLines_eq hreturn]
  rfl

end Worksheet.Xml.Source
