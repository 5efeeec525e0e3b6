import Mathlib.Data.List.Basic
import Worksheet.Proofs.Result
import Worksheet.Sheet.File

/-!
# Characters that are refused

A saved sheet is written if a document can hold each of its characters, and otherwise refused with
the first that it cannot hold, in the order of the document.

* `Xml.isChar_iff`: which characters a document can hold, by their code points.
* `check_eq`: the check goes through the characters of the saved sheet in order.
* `check_eq_ok_iff`, `check_eq_error_iff`: what passes the check, and what is reported.
-/

namespace Worksheet

/-- The production `Char` of XML 1.0, by code points. -/
def Xml.InProduction (c : Char) : Prop :=
  c.toNat = 0x9 ∨ c.toNat = 0xA ∨ c.toNat = 0xD ∨ (0x20 ≤ c.toNat ∧ c.toNat ≤ 0xD7FF)
    ∨ (0xE000 ≤ c.toNat ∧ c.toNat ≤ 0xFFFD) ∨ (0x10000 ≤ c.toNat ∧ c.toNat ≤ 0x10FFFF)

/-- The test for characters is the production. -/
theorem Xml.isChar_iff (c : Char) : isChar c = true ↔ InProduction c := by
  have hvalid : c.toNat < 0xD800 ∨ (0xDFFF < c.toNat ∧ c.toNat < 0x110000) := c.valid
  have hcode : ∀ d : Char, c = d ↔ c.toNat = d.toNat := fun d => Char.toNat_inj.symm
  unfold InProduction isChar
  simp only [Bool.or_eq_true, Bool.and_eq_true, beq_iff_eq, bne_iff_ne, decide_eq_true_eq, hcode]
  show ((c.toNat = 9 ∨ c.toNat = 10) ∨ c.toNat = 13) ∨ _ ↔ _
  omega

namespace Saved

/-! ### Characters in order -/

/-- The characters of a text, with the place where it stands. -/
def charactersOf (place : Place) (text : String) : List (Place × Char) :=
  text.toList.map fun c => (place, c)

/-- The characters of a saved sheet in order, each with the place where it stands. -/
def characters (saved : Saved String) : List (Place × Char) :=
  charactersOf .version saved.version ++ saved.cells.flatMap fun (name, contents) =>
    charactersOf (.name name) name ++ charactersOf (.contents name) contents

/-- Whether a document can hold all characters of a saved sheet. -/
structure Storable (saved : Saved String) : Prop where
  version : ∀ c ∈ saved.version.toList, Xml.InProduction c
  name : ∀ cell ∈ saved.cells, ∀ c ∈ cell.1.toList, Xml.InProduction c
  contents : ∀ cell ∈ saved.cells, ∀ c ∈ cell.2.toList, Xml.InProduction c

/-- A document can hold a saved sheet if it can hold each of its characters in turn. -/
theorem storable_iff {saved : Saved String} :
    saved.Storable ↔ ∀ p ∈ saved.characters, Xml.InProduction p.2 := by
  unfold characters charactersOf
  constructor
  · intro h p hp
    simp only [List.mem_append, List.mem_flatMap, List.mem_map] at hp
    rcases hp with ⟨c, hc, rfl⟩ | ⟨cell, hcell, ⟨c, hc, rfl⟩ | ⟨c, hc, rfl⟩⟩
    · exact h.version c hc
    · exact h.name cell hcell c hc
    · exact h.contents cell hcell c hc
  · intro h
    simp only [List.forall_mem_append, List.forall_mem_flatMap, List.forall_mem_map] at h
    obtain ⟨hversion, hcells⟩ := h
    exact ⟨hversion, fun cell hcell => (hcells cell hcell).1, fun cell hcell => (hcells cell hcell).2⟩

/-- Whether a document can hold all characters of a saved sheet before a certain one, but not it. -/
def IsFirstBad (saved : Saved String) (u : Unstorable) : Prop :=
  ¬ Xml.InProduction u.character
    ∧ ∃ before after, saved.characters = before ++ (u.place, u.character) :: after
      ∧ ∀ p ∈ before, Xml.InProduction p.2

/-! ### The check

The check is written as a loop over the cells, but comes to one search over all characters in order.
What it reports is what that search finds first.
-/

/-- Refuses a character, if there is one. -/
def refuse : Option (Place × Char) → Except Unstorable Unit
  | none => .ok ()
  | some (place, c) => .error ⟨c, place⟩

/-- The first of two characters is refused, and the second only if there is no first. -/
theorem refuse_or (p q : Option (Place × Char)) :
    refuse (p.or q) = refuse p >>= fun _ => refuse q := by
  cases p <;> rfl

/-- The first of some characters that no document can hold. -/
def firstBad? (characters : List (Place × Char)) : Option (Place × Char) :=
  characters.find? fun p => !Xml.isChar p.2

/-- Two rows of characters are searched one after the other. -/
theorem refuse_firstBad?_append (l l' : List (Place × Char)) :
    refuse (firstBad? (l ++ l')) = refuse (firstBad? l) >>= fun _ => refuse (firstBad? l') := by
  rw [firstBad?, List.find?_append, refuse_or]
  rfl

theorem checkText_eq (place : Place) (text : String) :
    checkText place text = refuse (firstBad? (charactersOf place text)) := by
  have hfind : firstBad? (charactersOf place text)
      = (text.toList.find? (!Xml.isChar ·)).map fun c => (place, c) := List.find?_map ..
  rw [hfind, checkText]
  cases text.toList.find? (!Xml.isChar ·) <;> rfl

/-- A saved sheet is refused with the first of its characters that no document can hold. -/
theorem check_eq (saved : Saved String) : saved.check = refuse (firstBad? saved.characters) := by
  rw [characters, refuse_firstBad?_append, ← checkText_eq, check]
  apply bind_congr
  intro _
  induction saved.cells with
  | nil => rfl
  | cons cell cells ih =>
    rw [List.flatMap_cons, refuse_firstBad?_append, ← ih, refuse_firstBad?_append, ← checkText_eq,
      ← checkText_eq]
    rfl

/-- What passes the check can be held by a document. -/
theorem check_eq_ok_iff {saved : Saved String} : saved.check = .ok () ↔ saved.Storable := by
  have hnone : firstBad? saved.characters = none ↔ saved.Storable := by
    simp [firstBad?, storable_iff, Xml.isChar_iff]
  rw [check_eq, ← hnone]
  cases firstBad? saved.characters with
  | none => exact iff_of_true rfl rfl
  | some p => exact iff_of_false nofun nofun

/-- What is reported is the first character that no document can hold. -/
theorem check_eq_error_iff {saved : Saved String} {u : Unstorable} :
    saved.check = .error u ↔ saved.IsFirstBad u := by
  have hsome : firstBad? saved.characters = some (u.place, u.character) ↔ saved.IsFirstBad u := by
    simp [firstBad?, IsFirstBad, List.find?_eq_some_iff_append, ← Xml.isChar_iff]
  rw [check_eq, ← hsome]
  cases firstBad? saved.characters with
  | none => exact iff_of_false nofun nofun
  | some p =>
    obtain ⟨place, c⟩ := p
    constructor
    · intro h
      cases h
      rfl
    · intro h
      cases h
      rfl

end Saved

end Worksheet
