import Worksheet.Proofs.Sheet.Effect
import Worksheet.Proofs.Sheet.Refused

/-!
# Setting contents again

A cell that is given the content that it has already keeps everything as it is: no order changes, no
value, and no row of the graph. So setting a content twice is setting it once, and the text that
would be typed for a cell can be typed without a change.

* `Consistent.setContents_again`: what comes of a content that a cell has already.
* `Reachable.setContents_idempotent`: a content that has been taken is taken again.
* `typed_faithful`: texts that are shown are read as what they are shown for.
-/

namespace Worksheet

open Worksheet.Formula (Idempotent)

namespace Sheet

variable {sheet : Sheet} {n : String} {content : Option Content}

/-- The store keeps its order when a cell gets the content that it has. -/
theorem names_assign_self (sheet : Sheet) (n : String) :
    (sheet.assign n (contentOf sheet.cells n)).cells.names = sheet.cells.names := by
  cases hcontent : contentOf sheet.cells n with
  | none =>
    have hn : n ∉ sheet.cells.names :=
      (Table.find?_eq_none_iff _ _).mp (Option.map_eq_none_iff.mp hcontent)
    rw [names_assign_none, List.erase_of_not_mem hn]
  | some content =>
    obtain ⟨cell, hcell, -⟩ := Option.map_eq_some_iff.mp hcontent
    rw [names_assign_of_content (by simp), if_pos (Table.mem_names_of_find? hcell)]

namespace Consistent

/-- The reads of the content that a cell has are its dependees already. -/
theorem same_assign (h : Consistent sheet) (n : String) :
    (sheet.assign n (contentOf sheet.cells n)).graph.Same sheet.graph := by
  refine Graph.Same.of_replaceDependees h.valid ?_
  intro a
  rw [h.valid.mem_dependees, h.mirror]
  rfl

/-- The contents are what they were, and they determine the values. -/
theorem cells_again (h : Consistent sheet) {order : List String}
    (hafter : Consistent ((sheet.assign n (contentOf sheet.cells n)).computed order)) :
    ((sheet.assign n (contentOf sheet.cells n)).computed order).cells = sheet.cells := by
  refine Table.ext_find? (names_computed.trans (sheet.names_assign_self n)) ?_
  apply hafter.find?_eq h
  intro a
  rw [contentOf_computed]
  split
  · next ha => rw [ha]
  · rfl

/-- A cell that is given the content that it has is computed again, with all that depend on it, and
nothing changes. -/
theorem setContents_again (h : Consistent sheet) {name : Scalar} {raw : Option String}
    (haccept : sheet.accept name raw = .ok (n, contentOf sheet.cells n)) :
    ∃ order, sheet.graph.order [n] = .ok order ∧ (sheet.setContents name raw).1 = .ok order
      ∧ (sheet.setContents name raw).2.Alike { sheet with changed := true } := by
  have hsame := h.same_assign n
  have horders := hsame.order h.valid_assign h.valid [n]
  obtain ⟨order, horder⟩ := h.valid.exists_order h.acyclic [n]
  rcases setContents_cases h name raw with ⟨refusal, haccept', -⟩ | ⟨n', content, haccept', htried⟩
  · cases haccept.symm.trans haccept'
  · cases haccept.symm.trans haccept'
    rcases htried with ⟨c, hc, -⟩ | ⟨order', horder', heq⟩
    · cases hc.symm.trans (horders.trans horder)
    · cases horder'.symm.trans (horders.trans horder)
      rw [heq]
      exact ⟨order, horder, rfl, rfl, rfl, h.cells_again (h.computed haccept horder'), rfl, hsame⟩

end Consistent

/-! ### The same content twice -/

namespace Reachable

variable {naming : Naming} {version : String} {name : Scalar} {raw raw' : String}
  {order : List String}

/-- A content that has been taken is taken again, from the same text or from any other that stands
for it: the same cells are computed again in the same order, and the sheet stays as it is. -/
theorem setContents_idempotent (h : Reachable naming version sheet)
    (hset : (sheet.setContents name (some raw)).1 = .ok order)
    (hsame : Content.parse naming raw' = Content.parse naming raw) :
    ((sheet.setContents name (some raw)).2.setContents name (some raw')).1 = .ok order
      ∧ ((sheet.setContents name (some raw)).2.setContents name (some raw')).2.Alike
          (sheet.setContents name (some raw)).2 := by
  have hsheet := h.consistent
  rcases setContents_cases hsheet name (some raw) with
    ⟨refusal, -, heq⟩ | ⟨n, content, haccept, ⟨c, -, heq⟩ | ⟨order', horder, heq⟩⟩
  · rw [heq] at hset
    cases hset
  · rw [heq] at hset
    cases hset
  · rw [heq] at hset ⊢
    cases hset
    have hafter := hsheet.computed haccept horder
    obtain ⟨hname, text, htext, hparse⟩ := accept_eq_ok.mp haccept
    cases htext
    rw [← h.settings.1] at hsame
    have hagain : ((sheet.assign n content).computed order).accept name (some raw')
        = .ok (n, contentOf ((sheet.assign n content).computed order).cells n) := by
      rw [contentOf_computed, if_pos rfl]
      exact accept_eq_ok.mpr ⟨hname, raw', rfl, hsame.trans hparse⟩
    obtain ⟨order', horder', hresult, halike⟩ := hafter.setContents_again hagain
    cases horder'.symm.trans horder
    exact ⟨hresult, halike⟩

/-- A formula that another one reads, with spaces the second time. -/
theorem setContents_idempotent_spaced :
    ∃ sheet, Reachable .standard "1" sheet
      ∧ (sheet.setContents (.text "B1") (some "=A1*D1")).1 = .ok ["B1", "C1"]
      ∧ ((sheet.setContents (.text "B1") (some "=A1*D1")).2.setContents (.text "B1")
          (some "= A1 * D1")).1 = .ok ["B1", "C1"]
      ∧ ((sheet.setContents (.text "B1") (some "=A1*D1")).2.setContents (.text "B1")
          (some "= A1 * D1")).2.Alike (sheet.setContents (.text "B1") (some "=A1*D1")).2 := by
  have h : Reachable .standard "1" (((Sheet.empty .standard "1").setContents (.text "C1")
      (some "=A1+B1")).2.setContents (.text "B1") (some "=D1-A1")).2 :=
    .set _ _ (.set _ _ .empty)
  have hset : ((((Sheet.empty .standard "1").setContents (.text "C1")
      (some "=A1+B1")).2.setContents (.text "B1") (some "=D1-A1")).2.setContents (.text "B1")
      (some "=A1*D1")).1 = .ok ["B1", "C1"] := by cbv
  have hsame : Content.parse .standard "= A1 * D1" = Content.parse .standard "=A1*D1" := by
    have hspaced : Content.parse .standard "= A1 * D1" = .ok (some (.formula
        ⟨[.operand (.variable "A1"), .op .mul, .operand (.variable "D1")]⟩)) := by cbv
    have hplain : Content.parse .standard "=A1*D1" = .ok (some (.formula
        ⟨[.operand (.variable "A1"), .op .mul, .operand (.variable "D1")]⟩)) := by cbv
    rw [hspaced, hplain]
  exact ⟨_, h, hset, setContents_idempotent h hset hsame⟩

end Reachable

/-! ### Typing what is shown -/

/-- The text that is shown for a cell stands for the content that the cell has. -/
theorem Consistent.accept_typed (h : Consistent sheet) (hnaming : Idempotent sheet.naming)
    {name : Scalar} {text : String} (htyped : sheet.typed name = .ok text) :
    ∃ n, sheet.accept name (some text) = .ok (n, contentOf sheet.cells n) := by
  cases hname : sheet.naming.cell? name with
  | none =>
    rw [typed, contents, cellName, hname] at htyped
    cases htyped
  | some n =>
    rw [typed, contents, cellName, hname] at htyped
    cases htyped
    refine ⟨n, accept_eq_ok.mpr ⟨hname, _, rfl, ?_⟩⟩
    cases hcontent : contentOf sheet.cells n with
    | none =>
      rw [contentOf] at hcontent
      rw [hcontent]
      rfl
    | some content =>
      obtain ⟨raw, hparse⟩ := h.entered n content hcontent
      rw [contentOf] at hcontent
      rw [hcontent]
      exact Content.parse_shown hnaming hparse

/-- Whatever a text stands for, a number, a formula, a text or nothing, the text that is shown for
it stands for the same. So what a cell shows as typed can be typed again: it is taken, and changes
neither contents nor values nor any order. -/
theorem typed_faithful {naming : Naming} (hnaming : Idempotent naming) :
    (∀ raw content, Content.parse naming raw = .ok content →
      Content.parse naming ((content.map Content.typed).getD "") = .ok content)
    ∧ ∀ version sheet name text, Reachable naming version sheet → sheet.typed name = .ok text →
      ∃ order, (sheet.setContents name (some text)).1 = .ok order
        ∧ (sheet.setContents name (some text)).2.Alike { sheet with changed := true } := by
  refine ⟨fun raw content h => Content.parse_shown hnaming h, ?_⟩
  intro version sheet name text h htyped
  rw [← h.settings.1] at hnaming
  obtain ⟨n, haccept⟩ := h.consistent.accept_typed hnaming htyped
  obtain ⟨order, -, hresult, halike⟩ := h.consistent.setContents_again haccept
  exact ⟨order, hresult, halike⟩

/-- Zero keeps its sign, and a formula its cell. -/
theorem typed_faithful_zero :
    (∃ x, Content.parse .standard " -0.0 " = .ok (some (.number x))
      ∧ Content.typed (.number x) = "-0" ∧ Content.parse .standard "-0" = .ok (some (.number x)))
    ∧ ∃ sheet, Reachable .standard "1" sheet ∧ sheet.typed (.text "B1") = .ok "=A1"
      ∧ (sheet.setContents (.text "B1") (some "=A1")).2.Alike { sheet with changed := true } := by
  have hnaming : Idempotent .standard := fun _ => rfl
  obtain ⟨hparse, hset⟩ := typed_faithful hnaming
  refine ⟨?_, ?_⟩
  · have hle := Number.Decimal.nearest_le_infinity ⟨0, -1⟩
    have hmagnitude := Number.magnitude_ofMagnitude true hle
    have hsign := Number.isNegative_ofMagnitude true hle
    have hfinite : Number.isFinite (Number.ofDecimal true ⟨0, -1⟩) = true := by
      rw [Number.isFinite, Number.ofDecimal, hmagnitude]
      decide +kernel
    have hrender : Number.render [] (Number.ofDecimal true ⟨0, -1⟩) = "-0".toList := by
      rw [Number.render, Number.ofDecimal, hmagnitude, hsign]
      decide +kernel
    have hread : Number.read? " -0.0 ".toList = some (Number.ofDecimal true ⟨0, -1⟩) := by
      have htrim : Number.trim " -0.0 ".toList = ['-', '0', '.', '0'] := by cbv
      have hscan : Number.Numeral.scan ['0', '.', '0']
          = some (⟨['0'], ['.'], ['0'], none⟩, []) := by cbv
      have hdecimal : Number.Numeral.decimal ⟨['0'], ['.'], ['0'], none⟩ = ⟨0, -1⟩ := by decide
      rw [Number.read?, htrim]
      simp [Number.Exponent.splitSign, hscan, hdecimal, hfinite]
    have hzero : Content.parse .standard " -0.0 "
        = .ok (some (.number (Number.ofDecimal true ⟨0, -1⟩))) := by
      rw [Content.parse, hread]
    have htyped : Content.typed (.number (Number.ofDecimal true ⟨0, -1⟩)) = "-0" := by
      rw [Content.typed, Number.text, hrender]
      rfl
    refine ⟨_, hzero, htyped, ?_⟩
    have hagain := hparse _ _ hzero
    rwa [Option.map_some, Option.getD_some, htyped] at hagain
  · have h : Reachable .standard "1"
        ((Sheet.empty .standard "1").setContents (.text "B1") (some "=A1")).2 :=
      .set _ _ .empty
    have htyped : ((Sheet.empty .standard "1").setContents (.text "B1") (some "=A1")).2.typed
        (.text "B1") = .ok "=A1" := by cbv
    obtain ⟨order, -, halike⟩ := hset _ _ _ _ h htyped
    exact ⟨_, h, htyped, halike⟩

end Sheet

end Worksheet
