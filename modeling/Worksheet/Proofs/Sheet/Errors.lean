import Worksheet.Proofs.Sheet.Acceptance

/-!
# Errors spread

A formula that reads a cell without a number has an error as its value, and so has every formula that
reads it, however far away. Where all cells that a formula reads hold numbers, only a division by
zero can go wrong.

* `Consistent.fails_of_reads`: one step of an error along the formulas.
* `Reachable.errors_spread`: what a formula cell may hold, in every reachable sheet.
-/

namespace Worksheet.Sheet

open Relation (TransGen)

variable {sheet : Sheet} {a b : String} {f : Formula}

/-- The value of a cell is an error: a division by zero, or a variable that its formula mentions. -/
def Fails (sheet : Sheet) (a : String) : Prop :=
  sheet.valueOf a = .error .divisionByZero
    ∨ ∃ v, sheet.Reads a v ∧ sheet.valueOf a = .error (.undefinedVariable v)

namespace Consistent

/-- A formula that reads a cell without a number fails. -/
theorem fails_of_reads (h : Consistent sheet) (hreads : sheet.Reads a b)
    (hb : ∀ x, sheet.valueOf b ≠ .number x) : sheet.Fails a := by
  obtain ⟨f, hf, hmentions⟩ := hreads
  rcases h.number_or_fails hf with ⟨x, -, hall⟩ | hzero | ⟨v, hv, -, hvalue⟩
  · obtain ⟨y, hy⟩ := hall b hmentions
    exact absurd hy (hb y)
  · exact .inl hzero
  · exact .inr ⟨v, ⟨f, hf, hv⟩, hvalue⟩

/-- So does every formula that reads it through others. -/
theorem fails_of_transGen (h : Consistent sheet) (hreads : TransGen sheet.Reads a b)
    (hb : ∀ x, sheet.valueOf b ≠ .number x) : sheet.Fails a := by
  induction hreads using TransGen.head_induction_on with
  | single hab => exact h.fails_of_reads hab hb
  | head hac _ ih =>
    refine h.fails_of_reads hac ?_
    rcases ih with hvalue | ⟨v, -, hvalue⟩
    · simp [hvalue]
    · simp [hvalue]

/-- A cell that is not stored, or holds a text, holds no number. -/
theorem valueOf_ne_number (h : Consistent sheet)
    (hb : contentOf sheet.cells b = none ∨ ∃ t, contentOf sheet.cells b = some (.text t))
    (x : Float) : sheet.valueOf b ≠ .number x := by
  rcases hb with hb | ⟨t, hb⟩
  · rw [valueOf, Option.map_eq_none_iff.mp hb]
    simp
  · obtain ⟨cell, hcell, hcontent⟩ := Option.map_eq_some_iff.mp hb
    rw [valueOf, hcell]
    simp [h.value_of_text hcell hcontent]

end Consistent

namespace Reachable

variable {naming : Naming} {version : String}

/-- A formula cell that reads a cell that is not stored or holds a text, directly or through other
formula cells, has an error as its value: a division by zero, or a variable that it mentions itself.
A formula cell all of whose variables hold numbers has a number as its value, or a division by
zero. -/
theorem errors_spread (h : Reachable naming version sheet) :
    (∀ a b, TransGen sheet.Reads a b →
        (contentOf sheet.cells b = none ∨ ∃ t, contentOf sheet.cells b = some (.text t)) →
        sheet.Fails a)
      ∧ ∀ a f, contentOf sheet.cells a = some (.formula f) →
          (∀ v, f.Mentions v → ∃ x, sheet.valueOf v = .number x) →
          (∃ x, sheet.valueOf a = .number x) ∨ sheet.valueOf a = .error .divisionByZero := by
  have hsheet := h.consistent
  constructor
  · intro a b hreads hb
    exact hsheet.fails_of_transGen hreads (hsheet.valueOf_ne_number hb)
  · intro a f hf hnumbers
    rcases hsheet.number_or_fails hf with ⟨x, hx, -⟩ | hzero | ⟨v, hv, hno, -⟩
    · exact .inl ⟨x, hx⟩
    · exact .inr hzero
    · obtain ⟨x, hx⟩ := hnumbers v hv
      exact absurd hx (hno x)

/-- A formula that reads a formula that reads a cell without contents. -/
theorem errors_spread_chain :
    ∃ sheet, Reachable .standard "1" sheet ∧ TransGen sheet.Reads "C1" "A1"
      ∧ contentOf sheet.cells "A1" = none ∧ sheet.Fails "C1" := by
  obtain ⟨sheet, h, hcells⟩ : ∃ sheet, Reachable .standard "1" sheet ∧ sheet.cells.entries
      = [("B1", ⟨.formula ⟨[.operand (.variable "A1")]⟩, .error (.undefinedVariable "A1")⟩),
          ("C1", ⟨.formula ⟨[.operand (.variable "B1")]⟩, .error (.undefinedVariable "B1")⟩)] :=
    ⟨_, .set (.text "C1") (some "=B1") (.set (.text "B1") (some "=A1") .empty), by cbv⟩
  have hc : contentOf sheet.cells "C1" = some (.formula ⟨[.operand (.variable "B1")]⟩) := by
    rw [contentOf, Table.find?, hcells]
    rfl
  have hb : contentOf sheet.cells "B1" = some (.formula ⟨[.operand (.variable "A1")]⟩) := by
    rw [contentOf, Table.find?, hcells]
    rfl
  have ha : contentOf sheet.cells "A1" = none := by
    rw [contentOf, Table.find?, hcells]
    rfl
  have hreads : TransGen sheet.Reads "C1" "A1" :=
    .head ⟨_, hc, List.mem_singleton_self _⟩ (.single ⟨_, hb, List.mem_singleton_self _⟩)
  exact ⟨sheet, h, hreads, ha, (errors_spread h).1 "C1" "A1" hreads (.inl ha)⟩

end Reachable

end Worksheet.Sheet
