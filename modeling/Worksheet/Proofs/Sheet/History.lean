import Worksheet.Proofs.Sheet.Replay

/-!
# Independence of the history

What a sheet shows depends on its contents alone. Sheets that came to the same contents on different
ways may keep their cells, and list who depends on whom, in different orders; but their values are
the same, and whatever is set next is taken by both or refused by both, and leaves them with the
same contents again.

* `Agree`: sheets that show the same.
* `Peers.setContents`: sheets with the same contents take and refuse the same.
* `Peers.setAll`: so they do however many contents are set.
* `Reachable.history_independent`: the same of all reachable sheets, with the replay of a sheet as
  a particular way.
-/

namespace Worksheet.Sheet

open Relation (TransGen)
open Worksheet.Recalculation (Leads)
open Worksheet.Formula (Idempotent)

/-- Two sheets that show the same contents, values and dependents, in whatever order. -/
structure Agree (sheet sheet' : Sheet) : Prop where
  contents : ∀ n, contentOf sheet.cells n = contentOf sheet'.cells n
  value : ∀ name, sheet.value name = sheet'.value name
  dependents : ∀ n b, b ∈ sheet.graph.dependents n ↔ b ∈ sheet'.graph.dependents n

/-- Two results of setting a content that differ at most in the order of recalculation. -/
inductive SameOutcome : Except Refusal (List String) → Except Refusal (List String) → Prop
  | taken {order order' : List String} : order.Perm order' → SameOutcome (.ok order) (.ok order')
  | refused (refusal : Refusal) : SameOutcome (.error refusal) (.error refusal)

/-- Sets contents one after the other. The results say what came of each. -/
def setAll (sheet : Sheet) :
    List (Scalar × Option String) → List (Except Refusal (List String)) × Sheet
  | [] => ([], sheet)
  | (name, raw) :: requests =>
    let (result, sheet) := sheet.setContents name raw
    let (results, sheet) := sheet.setAll requests
    (result :: results, sheet)

/-- Consistent sheets with the same naming and the same contents. -/
structure Peers (sheet sheet' : Sheet) : Prop where
  left : sheet.Consistent
  right : sheet'.Consistent
  naming : sheet.naming = sheet'.naming
  contents : ∀ n, contentOf sheet.cells n = contentOf sheet'.cells n

namespace Peers

variable {sheet sheet' : Sheet} {n : String} {content : Option Content}

/-- Either sheet may have come first. -/
theorem symm (h : Peers sheet sheet') : Peers sheet' sheet :=
  ⟨h.right, h.left, h.naming.symm, fun n => (h.contents n).symm⟩

/-- Sheets with the same contents show the same. -/
theorem agree (h : Peers sheet sheet') : Agree sheet sheet' where
  contents := h.contents
  value name := by
    have hcells := h.left.find?_eq h.right h.contents
    have hvalue : sheet.valueOf = sheet'.valueOf := by
      funext n
      rw [valueOf, valueOf, hcells n]
    rw [value, value, cellName, cellName, h.naming, hvalue]
  dependents n b := by
    rw [h.left.mirror, h.right.mirror, readsOf, readsOf, h.contents]

theorem accept (h : Peers sheet sheet') : sheet.accept = sheet'.accept := by
  funext name raw
  unfold Sheet.accept cellName
  rw [h.naming]

/-- With a new content taken in, the same cells depend on each other in both sheets. -/
theorem leads_assign (h : Peers sheet sheet') (n : String) (content : Option Content) :
    Leads (sheet.assign n content).graph.dependents
      = Leads (sheet'.assign n content).graph.dependents := by
  funext a b
  apply propext
  show b ∈ (sheet.assign n content).graph.dependents a
    ↔ b ∈ (sheet'.assign n content).graph.dependents a
  rw [dependents_assign h.left.valid, dependents_assign h.right.valid, h.agree.dependents]

/-- A content that closes no cycle in one sheet closes none in the other, and the same cells are to
be computed again. -/
theorem order_assign (h : Peers sheet sheet') {order : List String}
    (horder : (sheet.assign n content).graph.order [n] = .ok order) :
    ∃ order', (sheet'.assign n content).graph.order [n] = .ok order' ∧ order.Perm order' := by
  have hleads := h.leads_assign n content
  have hacyclic : ∀ a, ¬ TransGen (Leads (sheet'.assign n content).graph.dependents) a a := by
    intro a
    rw [← hleads]
    exact h.left.acyclic_assign horder a
  obtain ⟨order', horder'⟩ := h.right.valid_assign.exists_order hacyclic [n]
  obtain ⟨hsettled, hmem⟩ := h.left.order_settled horder
  obtain ⟨hsettled', hmem'⟩ := h.right.order_settled horder'
  refine ⟨order', horder', ?_⟩
  -- Both orders list, each once, the cells that `n` leads to.
  rw [List.perm_ext_iff_of_nodup hsettled.nodup hsettled'.nodup]
  intro a
  rw [hmem, hmem', hleads]

/-- A content that is taken by both leaves them with the same contents. -/
theorem computed (h : Peers sheet sheet') {name : Scalar} {raw : Option String}
    (haccept : sheet.accept name raw = .ok (n, content)) {order order' : List String}
    (horder : (sheet.assign n content).graph.order [n] = .ok order)
    (horder' : (sheet'.assign n content).graph.order [n] = .ok order') :
    Peers ((sheet.assign n content).computed order) ((sheet'.assign n content).computed order') where
  left := h.left.computed haccept horder
  right := h.right.computed (h.accept ▸ haccept) horder'
  naming := h.naming
  contents a := by
    rw [contentOf_computed, contentOf_computed, h.contents]

/-- A sheet that has refused a content has its contents still. -/
theorem seen (h : Peers sheet sheet') (n : String) (names names' : List String) :
    Peers { sheet with graph := sheet.graph.seen n names }
      { sheet' with graph := sheet'.graph.seen n names' } :=
  ⟨h.left.seen n names, h.right.seen n names', h.naming, h.contents⟩

/-- Sheets with the same contents take and refuse the same, and have the same contents again. -/
theorem setContents (h : Peers sheet sheet') (name : Scalar) (raw : Option String) :
    SameOutcome (sheet.setContents name raw).1 (sheet'.setContents name raw).1
      ∧ Peers (sheet.setContents name raw).2 (sheet'.setContents name raw).2 := by
  rcases setContents_cases_both h.left h.right h.accept name raw with
    ⟨refusal, heq, heq'⟩ | ⟨n, content, haccept, htried, htried'⟩
  · rw [heq, heq']
    exact ⟨.refused refusal, h⟩
  · rcases htried with ⟨c, hc, heq⟩ | ⟨order, ho, heq⟩
    · rcases htried' with ⟨c', hc', heq'⟩ | ⟨order', ho', -⟩
      · -- A cycle is reported with the cell whose content closes it by both.
        cases h.left.order_error_eq hc
        cases h.right.order_error_eq hc'
        rw [heq, heq']
        exact ⟨.refused _, h.seen n _ _⟩
      · obtain ⟨order, ho, -⟩ := h.symm.order_assign ho'
        rw [ho] at hc
        cases hc
    · obtain ⟨order', ho', hperm⟩ := h.order_assign ho
      rcases htried' with ⟨c', hc', -⟩ | ⟨order'', ho'', heq'⟩
      · rw [ho'] at hc'
        cases hc'
      · rw [ho'] at ho''
        cases ho''
        rw [heq, heq']
        exact ⟨.taken hperm, h.computed haccept ho ho'⟩

/-- Sheets with the same contents take and refuse the same, however many contents are set. -/
theorem setAll (h : Peers sheet sheet') (requests : List (Scalar × Option String)) :
    List.Forall₂ SameOutcome (sheet.setAll requests).1 (sheet'.setAll requests).1
      ∧ Peers (sheet.setAll requests).2 (sheet'.setAll requests).2 := by
  induction requests generalizing sheet sheet' with
  | nil => exact ⟨.nil, h⟩
  | cons request requests ih =>
    obtain ⟨name, raw⟩ := request
    obtain ⟨hresult, hafter⟩ := h.setContents name raw
    obtain ⟨hresults, hlast⟩ := ih hafter
    exact ⟨.cons hresult hresults, hlast⟩

/-- A sheet whose cells are set again in an empty one, in any order, has the same contents. -/
theorem exists_replayed (h : sheet.Consistent) (hnaming : Idempotent sheet.naming)
    (version : String) {entries : List (String × Cell)} (hentries : entries.Perm sheet.cells.entries) :
    ∃ replayed, (entries.map fun e => (e.1, some e.2.content.typed)).foldlM Sheet.enter
        (empty sheet.naming version) = .ok replayed ∧ Peers sheet replayed := by
  obtain ⟨replayed, hentered, hall⟩ := h.exists_replayed hnaming version hentries
  exact ⟨replayed, hentered, h, hall.consistent, hall.naming.symm, hall.contentOf_eq hentries⟩

end Peers

namespace Reachable

variable {naming : Naming} {version version' : String} {sheet sheet' : Sheet}

/-- Setting any number of contents leads to a reachable sheet. -/
theorem setAll (h : Reachable naming version sheet) (requests : List (Scalar × Option String)) :
    Reachable naming version (sheet.setAll requests).2 := by
  induction requests generalizing sheet with
  | nil => exact h
  | cons request requests ih => exact ih (h.set request.1 request.2)

/-- Reachable sheets with the same contents are peers. -/
theorem peers (h : Reachable naming version sheet) (h' : Reachable naming version' sheet')
    (hcontents : ∀ n, contentOf sheet.cells n = contentOf sheet'.cells n) : Peers sheet sheet' :=
  ⟨h.consistent, h'.consistent, h.settings.1.trans h'.settings.1.symm, hcontents⟩

/-- Reachable sheets with the same contents have the same values and the same dependents, however
they were built. Whatever is set next is refused by both with the same refusal, or taken by both
with the same cells computed again, and the sheets show the same afterwards. In particular the
values are those of a sheet in which all cells have been set afresh, in any order. -/
theorem history_independent (h : Reachable naming version sheet)
    (h' : Reachable naming version' sheet')
    (hcontents : ∀ n, contentOf sheet.cells n = contentOf sheet'.cells n) :
    Agree sheet sheet'
    ∧ (∀ name raw,
      SameOutcome (sheet.setContents name raw).1 (sheet'.setContents name raw).1
        ∧ Agree (sheet.setContents name raw).2 (sheet'.setContents name raw).2)
    ∧ (Idempotent naming → ∀ (fresh : String) (entries : List (String × Cell)),
      entries.Perm sheet.cells.entries → ∃ replayed,
        (entries.map fun e => (e.1, some e.2.content.typed)).foldlM Sheet.enter
          (.empty naming fresh) = .ok replayed ∧ Agree sheet replayed) := by
  have hpeers := h.peers h' hcontents
  refine ⟨hpeers.agree, ?_, ?_⟩
  · intro name raw
    obtain ⟨hresult, hafter⟩ := hpeers.setContents name raw
    exact ⟨hresult, hafter.agree⟩
  · intro hnaming fresh entries hentries
    rw [← h.settings.1] at hnaming ⊢
    obtain ⟨replayed, hreplayed, hagain⟩ := Peers.exists_replayed hpeers.left hnaming fresh hentries
    exact ⟨replayed, hreplayed, hagain.agree⟩

/-- A formula and the text that it reads, set in either order, with a cycle refused on the one way
and a cell emptied again on the other. -/
theorem history_independent_detour :
    ∃ sheet sheet', Reachable .standard "1" sheet ∧ Reachable .standard "1" sheet'
      ∧ sheet.cells.names = ["B1", "A1"] ∧ sheet'.cells.names = ["A1", "B1"]
      ∧ Agree sheet sheet'
      ∧ ∃ replayed, [("A1", some "x"), ("B1", some "=A1")].foldlM enter (.empty .standard "2")
          = .ok replayed ∧ Agree sheet replayed := by
  have h : Reachable .standard "1" ((Sheet.empty .standard "1").setAll
      [(.text "B1", some "=A1"), (.text "A1", some "=B1"), (.text "A1", some "x")]).2 :=
    setAll .empty _
  have h' : Reachable .standard "1" ((Sheet.empty .standard "1").setAll
      [(.text "C1", some "y"), (.text "A1", some "x"), (.text "C1", some ""),
        (.text "B1", some "=A1")]).2 :=
    setAll .empty _
  have hcells : ((Sheet.empty .standard "1").setAll [(.text "B1", some "=A1"),
      (.text "A1", some "=B1"), (.text "A1", some "x")]).2.cells.entries
      = [("B1", ⟨.formula ⟨[.operand (.variable "A1")]⟩, .error (.undefinedVariable "A1")⟩),
          ("A1", ⟨.text "x", .text "x"⟩)] := by
    cbv
  have hcells' : ((Sheet.empty .standard "1").setAll [(.text "C1", some "y"),
      (.text "A1", some "x"), (.text "C1", some ""), (.text "B1", some "=A1")]).2.cells.entries
      = [("A1", ⟨.text "x", .text "x"⟩),
          ("B1", ⟨.formula ⟨[.operand (.variable "A1")]⟩, .error (.undefinedVariable "A1")⟩)] := by
    cbv
  generalize ((Sheet.empty .standard "1").setAll _).2 = sheet at h hcells
  generalize ((Sheet.empty .standard "1").setAll _).2 = sheet' at h' hcells'
  have hcontents : ∀ n, contentOf sheet.cells n = contentOf sheet'.cells n := by
    intro n
    rw [contentOf, Table.find?, hcells, contentOf, Table.find?, hcells']
    by_cases hA : n = "A1"
    · subst hA
      rfl
    · by_cases hB : n = "B1"
      · subst hB
        rfl
      · simp [List.lookup_cons, beq_eq_false_iff_ne.mpr hA, beq_eq_false_iff_ne.mpr hB]
  obtain ⟨hagree, -, hreplay⟩ := history_independent h h' hcontents
  obtain ⟨replayed, hentered, hsame⟩ := hreplay (fun _ => rfl) "2" _ (List.reverse_perm _)
  rw [hcells] at hentered
  refine ⟨sheet, sheet', h, h', ?_, ?_, hagree, replayed, hentered, hsame⟩
  · rw [Table.names, hcells]
    rfl
  · rw [Table.names, hcells']
    rfl

end Reachable

end Worksheet.Sheet
