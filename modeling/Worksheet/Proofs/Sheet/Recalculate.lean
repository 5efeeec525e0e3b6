import Worksheet.Proofs.Formula.Evaluation
import Worksheet.Proofs.Recalculation
import Worksheet.Sheet.Basic

/-!
# Computing cells again

Computing some cells again changes their values and nothing else. If the cells are taken in a
settled order, and all others are up to date, then afterwards every cell is.

* `UpToDate`: the value of a cell is what its content amounts to in the table as it is.
* `upToDate_recalculate`: a settled order leaves no cell behind.
* `find?_eq_of_contentOf`: values that are up to date are determined by the contents.
-/

namespace Worksheet.Sheet

open Worksheet.Recalculation (Settled)

variable {cells cells' : Table Cell} {name : String}

/-- The content of a cell, if it has any. -/
def contentOf (cells : Table Cell) (name : String) : Option Content :=
  (cells.find? name).map Cell.content

/-- The cells that the content of a cell reads. -/
def readsOf (cells : Table Cell) (name : String) : List String :=
  ((contentOf cells name).map Content.reads).getD []

/-- The value of a cell, if it has any, is that of its content. -/
def UpToDate (cells : Table Cell) (name : String) : Prop :=
  ∀ cell, cells.find? name = some cell →
    cell.value = cell.content.compute (m := Id) (lookup cells)

/-- A lookup sees nothing but the cell of that name. -/
theorem lookup_congr (h : cells.find? name = cells'.find? name) :
    lookup cells name = lookup cells' name := by
  rw [lookup, lookup, h]

/-- What a cell reads is read by its content. -/
theorem readsOf_eq {cell : Cell} (h : cells.find? name = some cell) :
    readsOf cells name = cell.content.reads := by
  rw [readsOf, contentOf, h]
  rfl

/-- A cell stays up to date as long as it and the cells that it reads stay as they are. -/
theorem UpToDate.congr (h : UpToDate cells name) (hname : cells'.find? name = cells.find? name)
    (hreads : ∀ v ∈ readsOf cells name, cells'.find? v = cells.find? v) :
    UpToDate cells' name := by
  intro cell hcell
  rw [hname] at hcell
  rw [h cell hcell]
  refine Content.compute_congr fun v hv => (lookup_congr (hreads v ?_)).symm
  rwa [readsOf_eq hcell]

/-! ### One cell

To compute a cell again is to enter it under its name, with the content that it had. So it changes
the value of one cell, and neither contents nor the order of the cells.
-/

theorem find?_recalculateCell_ne {other : String} (h : other ≠ name) :
    (recalculateCell cells name).find? other = cells.find? other := by
  unfold recalculateCell
  split
  · rw [Table.find?_insert, if_neg h]
  · rfl

/-- The cell has what its content comes to, if it is stored. -/
theorem find?_recalculateCell_self :
    (recalculateCell cells name).find? name
      = (cells.find? name).map fun cell =>
          { cell with value := cell.content.compute (m := Id) (lookup cells) } := by
  unfold recalculateCell
  cases hcell : cells.find? name with
  | none => exact hcell
  | some cell => simp

/-- Contents are not computed. -/
@[simp] theorem contentOf_recalculateCell (other : String) :
    contentOf (recalculateCell cells name) other = contentOf cells other := by
  by_cases h : other = name
  · subst h
    rw [contentOf, contentOf, find?_recalculateCell_self, Option.map_map]
    rfl
  · rw [contentOf, contentOf, find?_recalculateCell_ne h]

/-- No cell is moved. -/
@[simp] theorem names_recalculateCell : (recalculateCell cells name).names = cells.names := by
  unfold recalculateCell
  split
  · next cell hcell =>
    have hmem : name ∈ cells.names := by
      by_contra hmem
      rw [(Table.find?_eq_none_iff cells name).mpr hmem] at hcell
      cases hcell
    rw [Table.names_insert, if_pos hmem]
  · rfl

/-- A cell that does not read itself is up to date once it has been computed. -/
theorem upToDate_recalculateCell (h : name ∉ readsOf cells name) :
    UpToDate (recalculateCell cells name) name := by
  intro cell hcell
  rw [find?_recalculateCell_self, Option.map_eq_some_iff] at hcell
  obtain ⟨before, hbefore, rfl⟩ := hcell
  refine Content.compute_congr fun v hv => lookup_congr (find?_recalculateCell_ne ?_).symm
  rintro rfl
  exact h (readsOf_eq hbefore ▸ hv)

/-! ### Several cells

By induction on the order. Each cell is computed when all that it reads are up to date, and none
that is computed behind it is read by it, so it stays up to date.
-/

/-- However many cells are computed, contents stay. -/
@[simp] theorem contentOf_recalculate (order : List String) (other : String) :
    contentOf (recalculate cells order) other = contentOf cells other := by
  induction order generalizing cells with
  | nil => rfl
  | cons a order ih => exact ih.trans (contentOf_recalculateCell other)

@[simp] theorem readsOf_recalculate (order : List String) (other : String) :
    readsOf (recalculate cells order) other = readsOf cells other := by
  rw [readsOf, contentOf_recalculate, readsOf]

/-- What is not in the order is left as it is. -/
theorem find?_recalculate_of_not_mem {order : List String} {other : String} (h : other ∉ order) :
    (recalculate cells order).find? other = cells.find? other := by
  induction order generalizing cells with
  | nil => rfl
  | cons a order ih =>
    rw [List.mem_cons, not_or] at h
    show (recalculate (recalculateCell cells a) order).find? other = _
    rw [ih h.2, find?_recalculateCell_ne h.1]

@[simp] theorem names_recalculate (order : List String) :
    (recalculate cells order).names = cells.names := by
  induction order generalizing cells with
  | nil => rfl
  | cons a order ih => exact ih.trans names_recalculateCell

/-- After a settled order no cell is left behind, if at first none was outside of the order. -/
theorem upToDate_recalculate {f : String → List String} {order : List String}
    (horder : Settled f order) (hreads : ∀ a, ∀ v ∈ readsOf cells a, a ∈ f v)
    (h : ∀ a, a ∉ order → UpToDate cells a) (a : String) :
    UpToDate (recalculate cells order) a := by
  induction horder generalizing cells with
  | nil => exact h a List.not_mem_nil
  | @cons first order hfirst hbehind _ ih =>
    have hnoread : ∀ b, b ∉ order → first ∉ readsOf cells b := fun b hb hread =>
      hb (hbehind b (hreads b first hread))
    show UpToDate (recalculate (recalculateCell cells first) order) a
    refine ih ?_ ?_
    · intro b v hv
      rw [readsOf, contentOf_recalculateCell] at hv
      exact hreads b v hv
    · intro b hb
      by_cases hbf : b = first
      · subst hbf
        exact upToDate_recalculateCell (hnoread b hb)
      · refine (h b (by simp [hbf, hb])).congr (find?_recalculateCell_ne hbf) fun v hv => ?_
        apply find?_recalculateCell_ne
        rintro rfl
        exact hnoread b hb hv

/-- Values that are up to date are determined by the contents, if the cells stand in a settled
order. -/
theorem find?_eq_of_contentOf {f : String → List String} {order : List String}
    (horder : Settled f order) (hreads : ∀ a, ∀ v ∈ readsOf cells a, a ∈ f v)
    (hcontent : ∀ a, contentOf cells a = contentOf cells' a) (h : ∀ a, UpToDate cells a)
    (h' : ∀ a, UpToDate cells' a) (houtside : ∀ a, a ∉ order → cells.find? a = cells'.find? a)
    (a : String) : cells.find? a = cells'.find? a := by
  induction horder with
  | nil => exact houtside a List.not_mem_nil
  | @cons first order hfirst hbehind hsettled ih =>
    apply ih
    intro b hb
    by_cases hbf : b = first
    · subst hbf
      -- The cells that the first one reads stand neither behind it nor in its place.
      have hread : ∀ v ∈ readsOf cells b, cells.find? v = cells'.find? v := by
        intro v hv
        have hbv := hreads b v hv
        refine houtside v fun hmem => hb ?_
        rcases List.mem_cons.mp hmem with rfl | hmem
        · exact hbehind v hbv
        · exact hsettled.mem_of_leads hmem hbv
      have hsame := hcontent b
      rw [contentOf, contentOf] at hsame
      cases hcell : cells.find? b with
      | none =>
        rw [hcell, Option.map_none] at hsame
        exact (Option.map_eq_none_iff.mp hsame.symm).symm
      | some cell =>
        rw [hcell, Option.map_some] at hsame
        obtain ⟨cell', hcell', hcontents⟩ := Option.map_eq_some_iff.mp hsame.symm
        have hvalue : cell.value = cell'.value := by
          rw [h b cell hcell, h' b cell' hcell', hcontents]
          exact Content.compute_congr fun v hv =>
            lookup_congr (hread v (readsOf_eq hcell ▸ hv))
        obtain ⟨content, value⟩ := cell
        obtain ⟨content', value'⟩ := cell'
        cases hcontents
        cases hvalue
        exact hcell'.symm
    · exact houtside b (by simp [hbf, hb])

end Worksheet.Sheet
