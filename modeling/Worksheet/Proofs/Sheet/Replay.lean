import Worksheet.Proofs.Cell
import Worksheet.Proofs.Sheet.Reachable
import Worksheet.Sheet.Storage

/-!
# Saved sheets loaded again

What is saved of a consistent sheet is loaded as the same sheet. The cells are set again in the order
in which they are stored, so that a formula may be set before the cells that it reads; at every
moment the graph is a part of that of the saved sheet, and in the end the contents, and with them the
values, are the same.

* `Replayed.enter`: one cell more is set again.
* `load_saved`: the sheet is loaded with its cells as they were.
-/

namespace Worksheet.Sheet

open Relation (ReflTransGen TransGen)
open Worksheet.Recalculation (Leads)
open Worksheet.Formula (Idempotent)

variable {sheet loaded : Sheet}

/-- A sheet in which some cells of another have been set again. -/
structure Replayed (sheet : Sheet) (entries : List (String × Cell)) (loaded : Sheet) : Prop where
  consistent : loaded.Consistent
  naming : loaded.naming = sheet.naming
  names : loaded.cells.names = entries.map Prod.fst
  contents : ∀ a, contentOf loaded.cells a
    = if a ∈ entries.map Prod.fst then contentOf sheet.cells a else none

/-- The name of a stored cell names the cell. -/
theorem Consistent.cell?_name (h : Consistent sheet) (hnaming : Idempotent sheet.naming) {n : String}
    (hn : n ∈ sheet.cells.names) : sheet.naming.cell? (.text n) = some n := by
  obtain ⟨name, hname⟩ := h.named n hn
  unfold Naming.cell? at hname
  split at hname
  · split at hname
    · obtain ⟨hidentifier, hsame⟩ := Formula.resolve?_resolve? hnaming hname
      rw [Naming.cell?, if_pos hidentifier, hsame]
    · cases hname
  · cases hname

namespace Replayed

variable {entries : List (String × Cell)}

/-- While the cells are entered, none reads what it does not read in the end. -/
theorem readsOf_subset (h : Replayed sheet entries loaded) {a b : String}
    (ha : a ∈ readsOf loaded.cells b) : a ∈ readsOf sheet.cells b := by
  rw [readsOf, h.contents] at ha
  split at ha
  · exact ha
  · cases ha

/-- Setting a cell again closes no cycle. -/
theorem acyclic_assign (h : Replayed sheet entries loaded) (hsheet : sheet.Consistent) {n : String}
    {content : Content} (hcontent : contentOf sheet.cells n = some content) (a : String) :
    ¬ TransGen (Leads (loaded.assign n (some content)).graph.dependents) a a := by
  intro ha
  -- Each read of the growing sheet is one of the saved sheet, which has no cycle.
  refine hsheet.acyclic a (TransGen.mono ?_ a a ha)
  intro x y hxy
  rw [Leads, h.consistent.mirror_assign, readsOf_assign] at hxy
  rw [Leads, hsheet.mirror]
  split at hxy
  · next hy =>
    rw [hy, readsOf, hcontent]
    exact hxy
  · exact h.readsOf_subset hxy

/-- One cell more is set again. -/
theorem enter (h : Replayed sheet entries loaded) (hsheet : sheet.Consistent)
    (hnaming : Idempotent sheet.naming) {n : String} {cell : Cell}
    (hcell : (n, cell) ∈ sheet.cells.entries) (hn : n ∉ entries.map Prod.fst) :
    ∃ after, loaded.enter (n, some cell.content.typed) = .ok after
      ∧ Replayed sheet (entries ++ [(n, cell)]) after := by
  have hcontent : contentOf sheet.cells n = some cell.content := by
    rw [contentOf, Table.find?_of_mem hcell]
    rfl
  obtain ⟨raw, hparse⟩ := hsheet.entered n cell.content hcontent
  have hname := hsheet.cell?_name hnaming (List.mem_map.mpr ⟨_, hcell, rfl⟩)
  have htyped := Content.parse_typed hnaming hparse
  rw [← h.naming] at hname htyped
  have haccept : loaded.accept (.text n) (some cell.content.typed) = .ok (n, some cell.content) :=
    accept_eq_ok.mpr ⟨hname, _, rfl, htyped⟩
  obtain ⟨order, horder⟩ :=
    h.consistent.valid_assign.exists_order (h.acyclic_assign hsheet hcontent) [n]
  have hentered : loaded.enter (n, some cell.content.typed)
      = .ok ((loaded.assign n (some cell.content)).computed order) :=
    (enter_eq_ok h.consistent).mpr ⟨n, some cell.content, order, haccept, horder, rfl⟩
  refine ⟨_, hentered, h.consistent.computed haccept horder, h.naming, ?_, ?_⟩
  · rw [computed, names_recalculate, assign, Option.map_some, Table.set, Table.names_insert, h.names,
      if_neg hn, List.map_append]
    rfl
  · intro a
    rw [contentOf_computed, h.contents]
    have hmem : a ∈ (entries ++ [(n, cell)]).map Prod.fst
        ↔ a ∈ entries.map Prod.fst ∨ a = n := by
      rw [List.map_append, List.mem_append, List.map_singleton, List.mem_singleton]
    by_cases ha : a = n
    · rw [if_pos ha, if_pos (hmem.mpr (.inr ha)), ha, hcontent]
    · rw [if_neg ha]
      exact if_congr (by rw [hmem, or_iff_left ha]) rfl rfl

/-- Some cells more are set again, in any order. -/
theorem foldlM_enter (h : Replayed sheet entries loaded) (hsheet : sheet.Consistent)
    (hnaming : Idempotent sheet.naming) {rest : List (String × Cell)}
    (hnodup : ((entries ++ rest).map Prod.fst).Nodup) (hrest : ∀ e ∈ rest, e ∈ sheet.cells.entries) :
    ∃ after, (rest.map fun e => (e.1, some e.2.content.typed)).foldlM Sheet.enter loaded = .ok after
      ∧ Replayed sheet (entries ++ rest) after := by
  induction rest generalizing entries loaded with
  | nil => exact ⟨loaded, rfl, (List.append_nil entries).symm ▸ h⟩
  | cons e rest ih =>
    obtain ⟨n, cell⟩ := e
    have hn : n ∉ entries.map Prod.fst := by
      rw [List.map_append, List.map_cons, List.nodup_middle, List.nodup_cons] at hnodup
      exact fun hn => hnodup.1 (List.mem_append_left _ hn)
    have happend : entries ++ (n, cell) :: rest = entries ++ [(n, cell)] ++ rest := by
      rw [List.append_assoc, List.singleton_append]
    obtain ⟨middle, hfirst, hmiddle⟩ :=
      h.enter hsheet hnaming (hrest _ List.mem_cons_self) hn
    obtain ⟨after, hlast, hafter⟩ :=
      ih hmiddle (happend ▸ hnodup) fun e he => hrest e (List.mem_cons_of_mem _ he)
    refine ⟨after, ?_, happend ▸ hafter⟩
    rw [List.map_cons, List.foldlM_cons, bind_eq_ok]
    exact ⟨middle, hfirst, hlast⟩

/-- When all cells have been set again, the contents are those of the saved sheet. -/
theorem contentOf_eq (h : Replayed sheet entries loaded) (hentries : entries.Perm sheet.cells.entries)
    (a : String) : contentOf sheet.cells a = contentOf loaded.cells a := by
  rw [h.contents]
  split
  · rfl
  · next ha =>
    rw [(hentries.map Prod.fst).mem_iff] at ha
    rw [contentOf, (Table.find?_eq_none_iff _ a).mpr ha]
    rfl

/-- When all cells have been set again in their order, the table is that of the saved sheet. -/
theorem cells_eq (h : Replayed sheet sheet.cells.entries loaded) (hsheet : sheet.Consistent) :
    loaded.cells = sheet.cells := by
  refine (Table.ext_find? h.names.symm ?_).symm
  exact hsheet.find?_eq h.consistent (h.contentOf_eq (.refl _))

end Replayed

/-- The cells of a consistent sheet are set again, in any order. -/
theorem Consistent.exists_replayed (h : sheet.Consistent) (hnaming : Idempotent sheet.naming)
    (version : String) {entries : List (String × Cell)}
    (hentries : entries.Perm sheet.cells.entries) :
    ∃ after, (entries.map fun e => (e.1, some e.2.content.typed)).foldlM Sheet.enter
        (empty sheet.naming version) = .ok after ∧ Replayed sheet entries after := by
  have hstart : Replayed sheet [] (empty sheet.naming version) :=
    ⟨consistent_empty _ _, rfl, rfl, fun a => rfl⟩
  exact hstart.foldlM_enter h hnaming ((hentries.map Prod.fst).nodup_iff.mpr sheet.cells.nodup)
    fun e he => hentries.mem_iff.mp he

/-- What is saved of a consistent sheet is loaded with the same cells. -/
theorem load_saved (h : sheet.Consistent) (hnaming : Idempotent sheet.naming) :
    ∃ loaded, load sheet.naming sheet.version (sheet.saved.map some) = .ok loaded
      ∧ loaded.cells = sheet.cells ∧ loaded.changed = false := by
  obtain ⟨entered, hentered, hall⟩ := h.exists_replayed hnaming sheet.version (.refl _)
  refine ⟨{ entered with changed := false }, load_eq_ok.mpr ⟨rfl, entered, ?_, rfl⟩,
    hall.cells_eq h, rfl⟩
  rw [← hentered, saved, Saved.map, List.map_map]
  rfl

end Worksheet.Sheet
