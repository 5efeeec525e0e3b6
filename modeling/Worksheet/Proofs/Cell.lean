import Worksheet.Proofs.Formula.Canonical
import Worksheet.Cell

/-!
# Contents and their texts

* `parse_eq_error_iff`, `parse_eq_formula_iff`: a text is read as a formula, and can be at fault,
  only if it begins with `=`.
* `parse_typed`: the typed text of a content that has been read is read as the same content;
  `parse_shown` says it of the empty text too, which stands for no content.
-/

namespace Worksheet.Content

/-- Trimming leaves a text at the place where it begins. -/
theorem exists_trim_cons {c : Char} (hc : Text.isMargin c = false) (cs : List Char) :
    ∃ ds, Number.trim (c :: cs) = c :: ds := by
  have hend : ∃ ds, (cs.reverse ++ [c]).dropWhile Text.isMargin = ds ++ [c] := by
    rw [List.dropWhile_append]
    split
    · exact ⟨[], by simp [hc]⟩
    · exact ⟨_, rfl⟩
  obtain ⟨ds, hds⟩ := hend
  refine ⟨ds.reverse, ?_⟩
  rw [Number.trim, List.dropWhile_cons_of_neg (by simp [hc]), List.reverse_cons, hds,
    List.reverse_append]
  rfl

/-- A text that begins with a character of no numeral is no number. -/
theorem read?_eq_none {c : Char} {cs : List Char} (hmargin : Text.isMargin c = false)
    (hsign : c ≠ '+' ∧ c ≠ '-') (hcontinues : Number.continues c = false) :
    Number.read? (c :: cs) = none := by
  obtain ⟨ds, hds⟩ := exists_trim_cons hmargin cs
  have hsplit : Number.Exponent.splitSign (c :: ds) = ([], c :: ds) := by
    unfold Number.Exponent.splitSign
    split
    · next heq =>
      cases heq
      exact absurd rfl hsign.1
    · next heq =>
      cases heq
      exact absurd rfl hsign.2
    · rfl
  have hscan : Number.Numeral.scan (c :: ds) = none := by
    simp only [Number.continues, Bool.or_eq_false_iff, beq_eq_false_iff_ne] at hcontinues
    obtain ⟨⟨⟨hdecimal, hpoint⟩, -⟩, -⟩ := hcontinues
    have hafter : Number.Numeral.afterPoint? [] (c :: ds) = none := by
      unfold Number.Numeral.afterPoint?
      split
      · next heq =>
        cases heq
        exact absurd rfl hpoint
      · rfl
    unfold Number.Numeral.scan
    simp [hdecimal, hafter]
  unfold Number.read?
  rw [hds, hsplit]
  simp only [hscan]

/-- A text that begins with `=` is read as a formula. -/
theorem parse_formula (naming : Naming) (text : String) :
    parse naming ("=" ++ text) = (Formula.parse naming text).map (some ∘ formula) := by
  have htext : ("=" ++ text).toList = '=' :: text.toList := by
    rw [String.toList_append]
    rfl
  have hread : Number.read? ('=' :: text.toList) = none :=
    read?_eq_none (by decide) (by decide) (by decide)
  unfold parse
  rw [htext, hread]
  simp only [String.ofList_toList]

/-- Every other text is read as something else. -/
theorem exists_parse_of_ne {naming : Naming} {raw : String} (h : ∀ text, raw ≠ "=" ++ text) :
    ∃ content, parse naming raw = .ok content ∧ ∀ f, content ≠ some (.formula f) := by
  unfold parse
  split
  · exact ⟨_, rfl, by simp⟩
  · split
    · exact ⟨_, rfl, by simp⟩
    · next cs hraw =>
      have hsame : raw = "=" ++ String.ofList cs := by
        apply String.toList_injective
        simp [hraw]
      exact absurd hsame (h _)
    · exact ⟨_, rfl, by simp⟩

/-- Only a formula can be at fault. -/
theorem parse_eq_error_iff {naming : Naming} {raw : String} {fault : Formula.Fault} :
    parse naming raw = .error fault
      ↔ ∃ text, raw = "=" ++ text ∧ Formula.parse naming text = .error fault := by
  constructor
  · intro h
    by_cases hraw : ∃ text, raw = "=" ++ text
    · obtain ⟨text, rfl⟩ := hraw
      refine ⟨text, rfl, ?_⟩
      rw [parse_formula] at h
      cases htext : Formula.parse naming text with
      | ok f =>
        rw [htext] at h
        cases h
      | error fault' =>
        rw [htext] at h
        cases h
        rfl
    · obtain ⟨content, hcontent, -⟩ := exists_parse_of_ne (not_exists.mp hraw)
      cases h.symm.trans hcontent
  · rintro ⟨text, rfl, h⟩
    rw [parse_formula, h]
    rfl

/-- Only a text that begins with `=` is read as a formula. -/
theorem parse_eq_formula_iff {naming : Naming} {raw : String} {f : Formula} :
    parse naming raw = .ok (some (.formula f))
      ↔ ∃ text, raw = "=" ++ text ∧ Formula.parse naming text = .ok f := by
  constructor
  · intro h
    by_cases hraw : ∃ text, raw = "=" ++ text
    · obtain ⟨text, rfl⟩ := hraw
      rw [parse_formula, map_eq_ok] at h
      obtain ⟨f', htext, hsame⟩ := h
      cases hsame
      exact ⟨text, rfl, htext⟩
    · obtain ⟨content, hcontent, hother⟩ := exists_parse_of_ne (not_exists.mp hraw)
      exact absurd (Except.ok.inj (hcontent.symm.trans h)) (hother f)
  · rintro ⟨text, rfl, h⟩
    rw [parse_formula, h]
    rfl

/-- A content is a number, a formula, or the text itself. -/
theorem parse_cases {naming : Naming} {raw : String} {content : Content}
    (h : parse naming raw = .ok (some content)) :
    (∃ x, Number.read? raw.toList = some x ∧ content = .number x)
      ∨ (∃ text f, Formula.parse naming text = .ok f ∧ content = .formula f)
      ∨ content = .text raw := by
  unfold parse at h
  split at h
  · next x hread =>
    cases h
    exact .inl ⟨x, hread, rfl⟩
  · next hread =>
    split at h
    · cases h
    · next cs hraw =>
      obtain ⟨f, hparse, hsome⟩ := map_eq_ok.mp h
      cases hsome
      exact .inr (.inl ⟨_, f, hparse, rfl⟩)
    · cases h
      exact .inr (.inr rfl)

/-- The typed text of a content is read as the content. -/
theorem parse_typed {naming : Naming} (hnaming : Formula.Idempotent naming) {raw : String}
    {content : Content} (h : parse naming raw = .ok (some content)) :
    parse naming content.typed = .ok (some content) := by
  rcases parse_cases h with ⟨x, hread, rfl⟩ | ⟨text, f, hparse, rfl⟩ | rfl
  · have hread' : Number.read? (typed (.number x)).toList = some x := by
      rw [typed, Number.text, String.toList_ofList]
      exact Number.read?_render (Number.isFinite_of_read? hread)
    unfold parse
    rw [hread']
  · -- A formula is told from a number by its first character.
    have htyped : (typed (.formula f)).toList = '=' :: f.text.toList := by
      rw [typed, String.toList_append]
      rfl
    have hread : Number.read? ('=' :: f.text.toList) = none :=
      read?_eq_none (by decide) (by decide) (by decide)
    unfold parse
    rw [htyped, hread]
    simp only [String.ofList_toList, Formula.parse_text hnaming hparse]
    rfl
  · exact h

/-- What is shown of a content is read as it, also where there is none. -/
theorem parse_shown {naming : Naming} (hnaming : Formula.Idempotent naming) {raw : String}
    {content : Option Content} (h : parse naming raw = .ok content) :
    parse naming ((content.map typed).getD "") = .ok content := by
  cases content with
  | none => rfl
  | some content => exact parse_typed hnaming h

end Worksheet.Content
