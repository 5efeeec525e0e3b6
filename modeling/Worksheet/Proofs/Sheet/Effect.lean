import Worksheet.Proofs.Sheet.Acceptance

/-!
# What setting a content changes

A content that is taken reaches its own cell and the cells that read it, directly or through other
formulas. These are computed again, each after those of them that it reads; all other cells stay as
they are, and the store keeps its order.

* `Effect`: what has changed from one sheet to another when a cell has got a content.
* `Consistent.effect`: that is what taking a content in and computing an order comes to.
* `Reachable.setContents_effect`: so it is whenever a reachable sheet takes a content.
-/

namespace Worksheet.Sheet

open Relation (ReflTransGen TransGen)
open Worksheet.Recalculation (Leads)

/-- What has changed from a sheet to the one after it when the cell `n` has got a content, and the
cells of an order have been computed again. -/
structure Effect (sheet : Sheet) (n : String) (content : Option Content) (order : List String)
    (after : Sheet) : Prop where
  /-- The order begins with the cell. -/
  first : ∃ rest, order = n :: rest
  nodup : order.Nodup
  /-- The order holds the cell and all that read it, directly or through others. -/
  affected : ∀ a, a ∈ order ↔ a = n ∨ TransGen after.Reads a n
  /-- Each cell stands behind all cells of the order that it reads. -/
  placed : ∀ before a behind, order = before ++ a :: behind →
    ∀ b ∈ order, after.Reads a b → b ∈ before
  given : contentOf after.cells n = content
  contents : ∀ a, a ≠ n → contentOf after.cells a = contentOf sheet.cells a
  values : ∀ a, a ∉ order → after.valueOf a = sheet.valueOf a
  /-- A cell that was stored keeps its place, -/
  kept : content ≠ none → n ∈ sheet.cells.names → after.cells.names = sheet.cells.names
  /-- a cell that was not comes last, -/
  appended : content ≠ none → n ∉ sheet.cells.names → after.cells.names = sheet.cells.names ++ [n]
  /-- and a cell without content is taken out. -/
  removed : content = none → after.cells.names = sheet.cells.names.erase n

variable {sheet : Sheet} {n : String} {content : Option Content} {order : List String}

/-! ### The order of the cells

Computing cells again moves none of them, so the order in which they are stored is decided by taking
the content in.
-/

/-- The cells stand where taking the content in has left them. -/
theorem names_computed : ((sheet.assign n content).computed order).cells.names
    = (sheet.assign n content).cells.names := names_recalculate order

/-- A cell with a content keeps its place, or is appended. -/
theorem names_assign_of_content (h : content ≠ none) : (sheet.assign n content).cells.names
    = if n ∈ sheet.cells.names then sheet.cells.names else sheet.cells.names ++ [n] := by
  cases content with
  | none => exact absurd rfl h
  | some content => exact Table.names_insert sheet.cells n _

/-- A cell without one is taken out. -/
theorem names_assign_none :
    (sheet.assign n none).cells.names = sheet.cells.names.erase n := by
  rw [sheet.cells.nodup_names.erase_eq_filter]
  exact Table.names_erase sheet.cells n

/-! ### The effect -/

/-- Outside of the order nothing has changed. -/
theorem valueOf_computed (hn : n ∈ order) {a : String} (ha : a ∉ order) :
    ((sheet.assign n content).computed order).valueOf a = sheet.valueOf a := by
  have hne : a ≠ n := fun h => ha (h ▸ hn)
  have hfind : ((sheet.assign n content).computed order).cells.find? a = sheet.cells.find? a := by
    rw [computed, find?_recalculate_of_not_mem ha, assign, Table.find?_set, if_neg hne]
  rw [valueOf, valueOf, hfind]

namespace Consistent

/-- With a content taken in and the cells that depend on it computed again, the cells have changed
that had to, and no others. -/
theorem effect (h : Consistent sheet) {name : Scalar} {raw : Option String}
    (haccept : sheet.accept name raw = .ok (n, content))
    (horder : (sheet.assign n content).graph.order [n] = .ok order) :
    Effect sheet n content order ((sheet.assign n content).computed order) := by
  have hafter := h.computed haccept horder
  obtain ⟨hsettled, hmem⟩ := h.order_settled horder
  have hn : n ∈ order := (hmem n).mpr .refl
  have hreads : ∀ {a b}, ((sheet.assign n content).computed order).Reads a b
      ↔ a ∈ (sheet.assign n content).graph.dependents b := hafter.reads_iff
  refine ⟨?_, hsettled.nodup, ?_, ?_, ?_, ?_, ?_, ?_, ?_, ?_⟩
  · exact hsettled.exists_eq_cons hn fun a => (hmem a).mp
  · intro a
    rw [hmem, hafter.transGen_reads_iff, Relation.reflTransGen_iff_eq_or_transGen]
    rfl
  · rintro before a behind rfl b hb hab
    exact hsettled.mem_before_of_leads hb (hreads.mp hab)
  · rw [contentOf_computed, if_pos rfl]
  · intro a ha
    rw [contentOf_computed, if_neg ha]
  · intro a ha
    exact valueOf_computed hn ha
  · intro hcontent hstored
    rw [names_computed, names_assign_of_content hcontent, if_pos hstored]
  · intro hcontent hstored
    rw [names_computed, names_assign_of_content hcontent, if_neg hstored]
  · rintro rfl
    rw [names_computed, names_assign_none]

end Consistent

namespace Reachable

variable {naming : Naming} {version : String} {name : Scalar} {raw : Option String}

/-- A content that is taken is that of the text, and has its effect on the sheet: the order begins
with its cell, holds each cell once that reads it, directly or through others, and each behind those
that it reads; the contents of all other cells, the values of all cells outside of the order, and
the order in which the cells are stored are as they were. -/
theorem setContents_effect (h : Reachable naming version sheet)
    (hset : (sheet.setContents name raw).1 = .ok order) :
    ∃ n text content, Names naming name n ∧ raw = some text
      ∧ Content.parse naming text = .ok content
      ∧ Effect sheet n content order (sheet.setContents name raw).2 := by
  have hsheet := h.consistent
  rcases setContents_cases hsheet name raw with ⟨refusal, -, heq⟩ | ⟨n, content, haccept, htried⟩
  · rw [heq] at hset
    cases hset
  · rcases htried with ⟨c, -, heq⟩ | ⟨order', horder, heq⟩
    · rw [heq] at hset
      cases hset
    · rw [heq] at hset
      cases hset
      obtain ⟨hname, text, htext, hparse⟩ := accept_eq_ok.mp haccept
      rw [h.settings.1] at hname hparse
      rw [heq]
      exact ⟨n, text, content, names_iff_cell?.mpr hname, htext, hparse, hsheet.effect haccept horder⟩

/-- A text in a cell that two formulas read, the one through the other. -/
theorem setContents_effect_chain :
    ∃ sheet, Reachable .standard "1" sheet
      ∧ (sheet.setContents (.text "A1") (some "x")).1 = .ok ["A1", "B1", "C1"]
      ∧ Effect sheet "A1" (some (.text "x")) ["A1", "B1", "C1"]
          (sheet.setContents (.text "A1") (some "x")).2 := by
  have h : Reachable .standard "1" (((Sheet.empty .standard "1").setContents (.text "C1")
      (some "=A1+B1")).2.setContents (.text "B1") (some "=A1")).2 :=
    .set _ _ (.set _ _ .empty)
  have hset : ((((Sheet.empty .standard "1").setContents (.text "C1")
      (some "=A1+B1")).2.setContents (.text "B1") (some "=A1")).2.setContents (.text "A1")
      (some "x")).1 = .ok ["A1", "B1", "C1"] := by cbv
  obtain ⟨n, text, content, hname, htext, hparse, heffect⟩ := setContents_effect h hset
  have hx : Content.parse .standard "x" = .ok (some (.text "x")) := by cbv
  cases htext
  cases hparse.symm.trans hx
  obtain ⟨rest, hrest⟩ := heffect.first
  cases hrest
  exact ⟨_, h, hset, heffect⟩

end Reachable

end Worksheet.Sheet
