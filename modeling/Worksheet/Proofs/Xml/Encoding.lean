import Worksheet.Proofs.Result
import Worksheet.Xml.Document

/-!
# Encodings that cannot be used

A document is refused for its encoding if its declaration names one that is not known, or that does
not give each byte a character of its own. Whatever else is wrong with it, it is malformed.

* `Declares`: the encoding that a document names.
* `Unsupported`: what is wrong with an encoding.
* `read_eq_encoding_iff`: a document is refused for its encoding exactly if it names such a one.
-/

namespace Worksheet.Xml

open Source (Units named detect values)

/-- The document names the encoding, in the declaration at its head. -/
def Declares (bytes : List UInt8) (name : List Char) : Prop :=
  ∃ declaration rest,
    Declaration.scan? ((values (detect bytes).1 (detect bytes).2).map Char.ofNat)
        = some (some declaration, rest)
      ∧ declaration.encoding = some name

/-- The encodings that need not be looked up, in capital letters. -/
def standing : List String :=
  ["UTF-8", "US-ASCII", "ISO-8859-1", "UTF-16", "UTF-16BE", "UTF-16LE"]

/-- What is wrong with an encoding that has been looked up. -/
inductive Unusable : Option Charset.Support → EncodingFault → Prop
  | unknown : Unusable none .unknown
  | multibyte : Unusable (some .multibyte) .multibyte
  | undecodable : Unusable (some .undecodable) .undecodable
  | undecodableBytes : Unusable (some .undecodableBytes) .undecodableBytes

/-- What is wrong with the encoding of a name: it has to be looked up, and then it is not known or
cannot be used. -/
structure Unsupported (name : List Char) (fault : EncodingFault) : Prop where
  lookedUp : String.ofList (name.map Char.toUpper) ∉ standing
  unusable : Unusable (Charset.find? name) fault

variable {units : Units} {name : List Char} {bytes : List UInt8} {fault : EncodingFault}

/-- A name is refused for its encoding if and only if something is wrong with that. -/
theorem named_eq_encoding_iff :
    named units name = .error (.encoding fault) ↔ Unsupported name fault := by
  unfold named
  dsimp only
  constructor
  · intro h
    split at h
    case h_7 hutf8 hascii hlatin hutf16 hbig hlittle =>
      have hlookedUp : String.ofList (name.map Char.toUpper) ∉ standing := by
        simp only [standing, List.mem_cons, List.not_mem_nil, or_false, not_or]
        exact ⟨hutf8, hascii, hlatin, hutf16, hbig, hlittle⟩
      refine ⟨hlookedUp, ?_⟩
      generalize Charset.find? name = found at h ⊢
      split at h
      · split at h <;> cases h
      · cases h
      · cases h
        exact .multibyte
      · cases h
        exact .undecodable
      · cases h
        exact .undecodableBytes
      · cases h
        exact .unknown
    -- The other six need not be looked up, and suit the units of the document or do not.
    all_goals split at h <;> cases h
  · rintro ⟨hlookedUp, hunusable⟩
    split
    case h_7 =>
      generalize Charset.find? name = found at hunusable ⊢
      cases hunusable <;> rfl
    all_goals
      next hname =>
        rw [hname] at hlookedUp
        exact absurd (by decide) hlookedUp

/-- What is declared is what has been found at the start of the bytes. -/
theorem declares_iff {declaration : Option Declaration} {rest : List Char}
    (h : Declaration.scan? ((values (detect bytes).1 (detect bytes).2).map Char.ofNat)
      = some (declaration, rest)) :
    Declares bytes name ↔ declaration.bind Declaration.encoding = some name := by
  rw [Option.bind_eq_some_iff]
  constructor
  · rintro ⟨declaration', rest', hscan, hname⟩
    cases h.symm.trans hscan
    exact ⟨declaration', rfl, hname⟩
  · rintro ⟨declaration', rfl, hname⟩
    exact ⟨declaration', rest, h, hname⟩

/-- The text of a document is refused for its encoding if and only if the document names one with
which something is wrong. -/
theorem source_eq_encoding_iff :
    Source.read bytes = .error (.encoding fault)
      ↔ ∃ name, Declares bytes name ∧ Unsupported name fault := by
  unfold Source.read
  dsimp only
  cases hscan : Declaration.scan? ((values (detect bytes).1 (detect bytes).2).map Char.ofNat) with
  | none =>
    constructor
    · intro h
      cases h
    · rintro ⟨name, ⟨declaration, rest, hname, -⟩, -⟩
      cases hscan.symm.trans hname
  | some found =>
    obtain ⟨declaration, rest⟩ := found
    dsimp only
    simp only [declares_iff hscan]
    -- What cannot be decoded, or holds other characters, is malformed.
    cases declaration.bind Declaration.encoding with
    | none =>
      constructor
      · intro h
        obtain h | ⟨encoding, -, h⟩ := bind_eq_error.mp h
        · cases h
        · split at h
          · split at h <;> cases h
          · cases h
      · rintro ⟨name, hname, -⟩
        cases hname
    | some name =>
      constructor
      · intro h
        obtain h | ⟨encoding, -, h⟩ := bind_eq_error.mp h
        · exact ⟨name, rfl, named_eq_encoding_iff.mp h⟩
        · split at h
          · split at h <;> cases h
          · cases h
      · rintro ⟨name, ⟨⟩, hunsupported⟩
        exact bind_eq_error.mpr (.inl (named_eq_encoding_iff.mpr hunsupported))

/-- A document is refused for its encoding if and only if it names one with which something is
wrong. -/
theorem read_eq_encoding_iff :
    read bytes = .error (.encoding fault)
      ↔ ∃ name, Declares bytes name ∧ Unsupported name fault := by
  rw [← source_eq_encoding_iff, read, bind_eq_error]
  constructor
  · rintro (h | ⟨source, -, h⟩)
    · exact h
    · split at h <;> cases h
  · exact .inl

end Worksheet.Xml
