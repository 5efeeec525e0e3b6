import Worksheet.Proofs.Xml.Growth
import Worksheet.Sheet.File

/-!
# Escaped characters

What is written for a character reads as the character, in the text of an element and in the value
of an attribute.

* `Denotes`: a reference that stands for a character.
* `spells_escaped`: an escaped text is read as the text.
* `attributeValue?_escaped`: an escaped value is read as the value.
-/

namespace Worksheet.Saved

open Worksheet.Xml (Open Piece Reference Feeds Spells Closes Doctype isChar isPlain isSpace noDoctype
  isBearable_noDoctype predefined?)

/-! ### References

A character that markup would take for its own is written as a reference. That a reference stands
for the character is evaluated once for each of them; afterwards only `Denotes` is used.
-/

/-- What stands behind the ampersand of a reference for a character. -/
structure Denotes (reference : List Char) (c : Char) : Prop where
  reads : ∃ r, (∀ rest, Reference.scan? .plain (reference ++ rest) = some (r, rest))
    ∧ (r = .char c ∨ ∃ name, r = .entity name ∧ predefined? name = some c)
  harmless : ∀ d ∈ reference, isChar d = true ∧ d ≠ '"' ∧ d ≠ '<' ∧ d ≠ '\r'

theorem denotes_amp : Denotes "amp;".toList '&' :=
  ⟨⟨.entity "amp", fun _ => rfl, .inr ⟨"amp", rfl, rfl⟩⟩, by simp [isChar]⟩

theorem denotes_lt : Denotes "lt;".toList '<' :=
  ⟨⟨.entity "lt", fun _ => rfl, .inr ⟨"lt", rfl, rfl⟩⟩, by simp [isChar]⟩

theorem denotes_gt : Denotes "gt;".toList '>' :=
  ⟨⟨.entity "gt", fun _ => rfl, .inr ⟨"gt", rfl, rfl⟩⟩, by simp [isChar]⟩

theorem denotes_quot : Denotes "quot;".toList '"' :=
  ⟨⟨.entity "quot", fun _ => rfl, .inr ⟨"quot", rfl, rfl⟩⟩, by simp [isChar]⟩

/-- A carriage return would be read as a line feed, and is written by its number. -/
theorem denotes_return : Denotes "#13;".toList '\r' :=
  ⟨⟨.char '\r', fun _ => rfl, .inl rfl⟩, by simp [isChar]⟩

/-- A line feed would be read as a blank in a value. -/
theorem denotes_feed : Denotes "#10;".toList '\n' :=
  ⟨⟨.char '\n', fun _ => rfl, .inl rfl⟩, by simp [isChar]⟩

theorem denotes_tab : Denotes "#09;".toList '\t' :=
  ⟨⟨.char '\t', fun _ => rfl, .inl rfl⟩, by simp [isChar]⟩

/-- A character of a text stands for itself, or a reference does. -/
theorem escapeText_cases (c : Char) :
    (escapeText c = [c] ∧ c ≠ '&' ∧ c ≠ '<' ∧ c ≠ '>' ∧ c ≠ '\r')
      ∨ ∃ reference, escapeText c = '&' :: reference ∧ Denotes reference c := by
  unfold escapeText
  split
  · next h => exact .inr ⟨_, rfl, h ▸ denotes_amp⟩
  · next hamp =>
    split
    · next h => exact .inr ⟨_, rfl, h ▸ denotes_lt⟩
    · next hlt =>
      split
      · next h => exact .inr ⟨_, rfl, h ▸ denotes_gt⟩
      · next hgt =>
        split
        · next h => exact .inr ⟨_, rfl, h ▸ denotes_return⟩
        · next hreturn => exact .inl ⟨rfl, hamp, hlt, hgt, hreturn⟩

/-- The same for a character of a value, where quotation marks, line feeds and tabs do not stand for
themselves either. -/
theorem escapeValue_cases (c : Char) :
    (escapeValue c = [c] ∧ c ≠ '&' ∧ c ≠ '<' ∧ c ≠ '\r' ∧ c ≠ '"' ∧ c ≠ '\n' ∧ c ≠ '\t')
      ∨ ∃ reference, escapeValue c = '&' :: reference ∧ Denotes reference c := by
  unfold escapeValue
  split
  · next h => exact .inr ⟨_, rfl, h ▸ denotes_quot⟩
  · next hquot =>
    split
    · next h => exact .inr ⟨_, rfl, h ▸ denotes_feed⟩
    · next hfeed =>
      split
      · next h => exact .inr ⟨_, rfl, h ▸ denotes_tab⟩
      · next htab =>
        rcases escapeText_cases c with ⟨hself, hamp, hlt, -, hreturn⟩ | hreference
        · exact .inl ⟨hself, hamp, hlt, hreturn, hquot, hfeed, htab⟩
        · exact .inr hreference

/-- What is written for a character holds neither carriage returns nor brackets, and only characters
that a document may hold. -/
theorem mem_escapeText {c d : Char} (hc : isChar c = true) (hd : d ∈ escapeText c) :
    isChar d = true ∧ d ≠ '<' ∧ d ≠ '\r' := by
  rcases escapeText_cases c with ⟨hself, -, hlt, -, hreturn⟩ | ⟨reference, heq, hdenotes⟩
  · rw [hself, List.mem_singleton] at hd
    subst hd
    exact ⟨hc, hlt, hreturn⟩
  · rw [heq, List.mem_cons] at hd
    rcases hd with rfl | hd
    · simp [isChar]
    · obtain ⟨hchar, -, hlt, hreturn⟩ := hdenotes.harmless d hd
      exact ⟨hchar, hlt, hreturn⟩

/-- The same of a value, which also holds no quotation mark. -/
theorem mem_escapeValue {c d : Char} (hd : d ∈ escapeValue c) :
    (isChar c = true → isChar d = true) ∧ d ≠ '<' ∧ d ≠ '\r' ∧ d ≠ '"' := by
  rcases escapeValue_cases c with ⟨hself, -, hlt, hreturn, hquot, -⟩ | ⟨reference, heq, hdenotes⟩
  · rw [hself, List.mem_singleton] at hd
    subst hd
    exact ⟨id, hlt, hreturn, hquot⟩
  · rw [heq, List.mem_cons] at hd
    rcases hd with rfl | hd
    · simp [isChar]
    · obtain ⟨hchar, hquot, hlt, hreturn⟩ := hdenotes.harmless d hd
      exact ⟨fun _ => hchar, hlt, hreturn, hquot⟩

/-! ### Texts

Between references the characters of a text form runs, which are read as wholes. The induction
therefore carries the run that has been begun.
-/

variable {o : Open}

/-- By itself a reference is read as its character. -/
theorem Denotes.closes {reference : List Char} {c : Char} (h : Denotes reference c) (o : Open) :
    Closes ('&' :: reference) o (o.fed [c]) := by
  obtain ⟨r, hscan, hr⟩ := h.reads
  rcases hr with rfl | ⟨name, rfl, hname⟩
  · refine .piece (p := .data [c]) ?_ (.data o [c])
    intro rest
    rw [Xml.piece?, if_neg (by decide), if_pos rfl, hscan]
    rfl
  · refine .piece (p := .entity name) ?_ (.entity o hname)
    intro rest
    rw [Xml.piece?, if_neg (by decide), if_pos rfl, hscan]
    rfl

/-- An escaped text is read as the text, also behind a run of character data. -/
theorem spells_run_escaped (text run : List Char) (hrun : ∀ c ∈ run, isPlain c = true)
    (hend : '>' ∉ run) (o : Open) :
    Spells (run ++ text.flatMap escapeText) o (o.fed (run ++ text)) := by
  induction text generalizing run o with
  | nil =>
    rw [List.flatMap_nil, List.append_nil]
    exact .run hrun hend o
  | cons c text ih =>
    rw [List.flatMap_cons]
    rcases escapeText_cases c with ⟨hself, hamp, hlt, hgt, -⟩ | ⟨reference, heq, hdenotes⟩
    · -- The character goes on with the run.
      have hc : isPlain c = true := by simp [isPlain, hamp, hlt]
      have hcons : run ++ c :: text = run ++ [c] ++ text := by simp
      rw [hself, ← List.append_assoc, hcons]
      refine ih _ ?_ ?_ o
      · intro d hd
        rcases List.mem_append.mp hd with hd | hd
        · exact hrun d hd
        · exact List.mem_singleton.mp hd ▸ hc
      · intro hd
        rcases List.mem_append.mp hd with hd | hd
        · exact hend hd
        · exact hgt (List.mem_singleton.mp hd).symm
    · -- The run ends before the reference, and another one begins behind it.
      rw [heq, Open.fed_append, List.cons_append, ← List.singleton_append (x := c),
        Open.fed_append]
      refine Spells.append (.run hrun hend o) ?_ (by decide)
      exact Closes.append (hdenotes.closes _) (ih [] (by simp) (by simp) _)

/-- An escaped text is read as the text. -/
theorem spells_escaped (text : List Char) (o : Open) :
    Spells (text.flatMap escapeText) o (o.fed text) :=
  spells_run_escaped text [] (by simp) (by simp) o

/-! ### Values

A value is read part by part: characters by themselves, and references.
-/

/-- A character is a part, with white space read as a blank. -/
theorem valueParts?_char {c : Char} {cs : List Char} (hlt : c ≠ '<') (hamp : c ≠ '&') :
    Doctype.valueParts? .plain (c :: cs)
      = (Doctype.valueParts? .plain cs).map (.char (if isSpace c then ' ' else c) :: ·) := by
  rw [Doctype.valueParts?.eq_def]
  simp only [if_neg hlt, if_neg hamp]

theorem valueParts?_reference {reference rest : List Char} {r : Reference}
    (h : Reference.scan? .plain (reference ++ rest) = some (r, rest)) :
    Doctype.valueParts? .plain ('&' :: (reference ++ rest))
      = (Doctype.valueParts? .plain rest).map (r :: ·) := by
  have hamp : ('&' : Char) ≠ '<' := by decide
  rw [Doctype.valueParts?.eq_def]
  simp only [if_neg hamp, if_true, h]
  rw [if_pos (by simp)]

/-- An escaped value falls into parts that stand for its characters. -/
theorem exists_valueParts (value : List Char) :
    ∃ parts, Doctype.valueParts? .plain (value.flatMap escapeValue) = some parts
      ∧ ∀ expand, parts.mapM (Doctype.partText? expand) = some (value.map ([·])) := by
  induction value with
  | nil => exact ⟨[], by rw [List.flatMap_nil, Doctype.valueParts?.eq_def], fun _ => rfl⟩
  | cons c value ih =>
    obtain ⟨parts, hparts, htexts⟩ := ih
    rw [List.flatMap_cons]
    rcases escapeValue_cases c with ⟨hself, hamp, hlt, hreturn, -, hfeed, htab⟩
      | ⟨reference, heq, hdenotes⟩
    · -- The only white space that stands for itself is the blank, which is kept.
      have hspace : (if isSpace c then ' ' else c) = c := by
        by_cases hc : c = ' '
        · simp [hc]
        · simp [isSpace, hc, htab, hfeed, hreturn]
      refine ⟨.char c :: parts, ?_, ?_⟩
      · rw [hself, List.singleton_append, valueParts?_char hlt hamp, hparts, hspace]
        rfl
      · intro expand
        rw [List.mapM_cons, htexts]
        rfl
    · obtain ⟨r, hscan, hr⟩ := hdenotes.reads
      refine ⟨r :: parts, ?_, ?_⟩
      · rw [heq, List.cons_append, valueParts?_reference (hscan _), hparts]
        rfl
      · intro expand
        have htext : Doctype.partText? expand r = some [c] := by
          rcases hr with rfl | ⟨name, rfl, hname⟩
          · rfl
          · rw [Doctype.partText?, hname]
        rw [List.mapM_cons, htexts, htext]
        rfl

/-- An escaped value is read as the value. -/
theorem attributeValue?_escaped (value : List Char) :
    noDoctype.attributeValue? .plain true (value.flatMap escapeValue) = some value := by
  obtain ⟨parts, hparts, htexts⟩ := exists_valueParts value
  have hflatten : (value.map ([·])).flatten = value := by
    rw [← List.flatMap_def]
    exact List.flatMap_singleton' value
  rw [Doctype.attributeValue?, if_pos (isBearable_noDoctype _)]
  unfold Doctype.value?
  simp only [hparts, htexts, Option.map_some, hflatten, if_true]

end Worksheet.Saved
