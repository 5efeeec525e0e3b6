import Worksheet.Proofs.Graph.Restore
import Worksheet.Proofs.Sheet.Recalculate

/-!
# Consistent sheets

The invariant of a sheet: its graph holds what its formulas read, no cell leads back to itself, and
every value is up to date. Setting the content of a cell keeps it, whether the content is taken or
refused.

* `Consistent`: the invariant.
* `setContents_cases`: what setting a content does to a consistent sheet; `setContents_cases_both`
  says it of two sheets at once.
* `Consistent.setContents`: the invariant is kept.
-/

namespace Worksheet.Sheet

open Relation (ReflTransGen TransGen)
open Worksheet.Recalculation (Leads Settled)

/-- The invariant of a sheet. -/
structure Consistent (sheet : Sheet) : Prop where
  valid : sheet.graph.Valid
  named : ∀ n ∈ sheet.cells.names, ∃ name, sheet.naming.cell? name = some n
  entered : ∀ n content, contentOf sheet.cells n = some content →
    ∃ raw, Content.parse sheet.naming raw = .ok (some content)
  mirror : ∀ a b, b ∈ sheet.graph.dependents a ↔ a ∈ readsOf sheet.cells b
  acyclic : ∀ a, ¬ TransGen (Leads sheet.graph.dependents) a a
  upToDate : ∀ a, UpToDate sheet.cells a

theorem consistent_empty (naming : Naming) (version : String) :
    Consistent (empty naming version) where
  valid := Graph.valid_empty
  named n hn := by cases hn
  entered n content h := by cases h
  mirror a b := by
    constructor
    · intro h
      cases h
    · intro h
      cases h
  acyclic a h := by
    obtain ⟨b, hb, -⟩ := TransGen.head'_iff.mp h
    cases hb
  upToDate a cell h := by cases h

variable {sheet : Sheet} {n : String} {content : Option Content}

/-- The cells of a consistent sheet are determined by their contents. -/
theorem Consistent.find?_eq {sheet' : Sheet} (h : Consistent sheet) (h' : Consistent sheet')
    (hcontent : ∀ a, contentOf sheet.cells a = contentOf sheet'.cells a) (a : String) :
    sheet.cells.find? a = sheet'.cells.find? a := by
  -- In an order of all cells, each value depends only on contents and on values before it.
  obtain ⟨order, horder⟩ := h.valid.exists_order h.acyclic sheet.cells.names
  obtain ⟨hsettled, hmem⟩ := h.valid.order_ok horder
  refine find?_eq_of_contentOf hsettled (fun b v hv => (h.mirror v b).mpr hv) hcontent h.upToDate
    h'.upToDate ?_ a
  intro b hb
  have hstored : sheet.cells.find? b = none := by
    rw [Table.find?_eq_none_iff]
    exact fun hstored => hb ((hmem b).mpr ⟨b, hstored, .refl⟩)
  have hcontents := hcontent b
  rw [contentOf, hstored] at hcontents
  rw [hstored, Option.map_eq_none_iff.mp hcontents.symm]

/-! ### Taking a content in

Between taking a content in and computing the cells again, the contents and the graph belong
together but the values are behind. What holds then decides whether the content is refused.
-/

/-- The cells that a content reads, if there is one. -/
def readsFor (content : Option Content) : List String := (content.map Content.reads).getD []

/-- One cell has the content, and all others have theirs. -/
theorem contentOf_assign (sheet : Sheet) (n : String) (content : Option Content) (a : String) :
    contentOf (sheet.assign n content).cells a
      = if a = n then content else contentOf sheet.cells a := by
  rw [contentOf, assign, Table.find?_set]
  split
  · cases content <;> rfl
  · rfl

theorem readsOf_assign (sheet : Sheet) (n : String) (content : Option Content) (a : String) :
    readsOf (sheet.assign n content).cells a
      = if a = n then readsFor content else readsOf sheet.cells a := by
  rw [readsOf, contentOf_assign]
  split <;> rfl

/-- In the graph the cell depends on what the content reads, and on nothing else. -/
theorem dependents_assign (h : sheet.graph.Valid) (a b : String) :
    b ∈ (sheet.assign n content).graph.dependents a
      ↔ if b = n then a ∈ readsFor content else b ∈ sheet.graph.dependents a :=
  Graph.mem_dependents_replaceDependees h n (readsFor content) a b

namespace Consistent

/-- The graph is valid again. -/
theorem valid_assign (h : Consistent sheet) : (sheet.assign n content).graph.Valid :=
  h.valid.replaceDependees n _

/-- The graph mirrors the contents again. -/
theorem mirror_assign (h : Consistent sheet) (a b : String) :
    b ∈ (sheet.assign n content).graph.dependents a
      ↔ a ∈ readsOf (sheet.assign n content).cells b := by
  rw [dependents_assign h.valid, readsOf_assign]
  split
  · rfl
  · exact h.mirror a b

/-- Any cycle that the reads of a content close leads through its cell. -/
theorem transGen_assign (h : Consistent sheet) {a : String}
    (ha : TransGen (Leads (sheet.assign n content).graph.dependents) a a) :
    TransGen (Leads (sheet.assign n content).graph.dependents) n n := by
  refine Recalculation.transGen_self_of_cycle ?_ h.acyclic ha
  intro a b hb hab
  rwa [dependents_assign h.valid, if_neg hb] at hab

/-- A content without reads closes no cycle. -/
theorem acyclic_assign_of_reads (h : Consistent sheet) (hreads : readsFor content = []) (a : String) :
    ¬ TransGen (Leads (sheet.assign n content).graph.dependents) a a := by
  intro ha
  obtain ⟨b, -, hb⟩ := TransGen.tail'_iff.mp (h.transGen_assign ha)
  rw [Leads, dependents_assign h.valid, if_pos rfl, hreads] at hb
  cases hb

/-- If there is an order, then it is settled and holds what the cell leads to. -/
theorem order_settled (h : Consistent sheet) {order : List String}
    (horder : (sheet.assign n content).graph.order [n] = .ok order) :
    Settled (sheet.assign n content).graph.dependents order
      ∧ ∀ a, a ∈ order ↔ ReflTransGen (Leads (sheet.assign n content).graph.dependents) n a := by
  obtain ⟨hsettled, hmem⟩ := h.valid_assign.order_ok horder
  refine ⟨hsettled, ?_⟩
  intro a
  rw [hmem]
  simp

/-- An order that starts from the cell of a new content shows that there are no cycles at all. -/
theorem acyclic_assign (h : Consistent sheet) {order : List String}
    (horder : (sheet.assign n content).graph.order [n] = .ok order) (a : String) :
    ¬ TransGen (Leads (sheet.assign n content).graph.dependents) a a := by
  intro ha
  obtain ⟨hsettled, hmem⟩ := h.order_settled horder
  exact hsettled.not_transGen_self ((hmem n).mpr .refl) (h.transGen_assign ha)

/-- Any cycle that the reads of a content close is reported with its cell. -/
theorem order_error_eq (h : Consistent sheet) {c : String}
    (horder : (sheet.assign n content).graph.order [n] = .error c) : c = n := by
  refine h.valid_assign.order_error_eq (fun a ha => h.acyclic a ?_) horder
  refine TransGen.mono ?_ a a ha
  rintro a b ⟨hab, hb⟩
  rwa [Leads, dependents_assign h.valid, if_neg hb] at hab

/-- A content whose reads close a cycle has reads. -/
theorem reads_of_order_error (h : Consistent sheet) {c : String}
    (horder : (sheet.assign n content).graph.order [n] = .error c) : readsFor content ≠ [] := by
  intro hreads
  exact h.acyclic_assign_of_reads hreads c (h.valid_assign.order_error horder)

/-- What is not computed again after a content has been taken in is up to date as it is. -/
theorem upToDate_assign (h : Consistent sheet) {order : List String}
    (horder : (sheet.assign n content).graph.order [n] = .ok order) {a : String}
    (ha : a ∉ order) : UpToDate (sheet.assign n content).cells a := by
  obtain ⟨hsettled, hmem⟩ := h.order_settled horder
  have hn : n ∈ order := (hmem n).mpr .refl
  have hsame : ∀ b, b ≠ n → (sheet.assign n content).cells.find? b = sheet.cells.find? b := by
    intro b hb
    rw [assign, Table.find?_set, if_neg hb]
  have han : a ≠ n := fun han => ha (han ▸ hn)
  refine (h.upToDate a).congr (hsame a han) fun v hv => hsame v ?_
  -- A cell that reads `n` depends on it, and would be in the order.
  rintro rfl
  apply ha
  refine hsettled.mem_of_leads hn ((h.mirror_assign v a).mpr ?_)
  rwa [readsOf_assign, if_neg han]

end Consistent

/-! ### Setting a content

All cases at once: a content is not accepted, or closes a cycle, or is taken in and the cells of an
order are computed. Every later result on `setContents` is read off these.
-/

/-- What is asked for is accepted if it names a cell and gives it a text that can be read. -/
theorem accept_eq_ok {name : Scalar} {raw : Option String} :
    sheet.accept name raw = .ok (n, content) ↔ sheet.naming.cell? name = some n
      ∧ ∃ text, raw = some text ∧ Content.parse sheet.naming text = .ok content := by
  unfold accept cellName
  constructor
  · intro h
    cases hname : sheet.naming.cell? name with
    | none =>
      rw [hname] at h
      cases h
    | some normal =>
      rw [hname] at h
      cases raw with
      | none => cases h
      | some text =>
        cases hparse : Content.parse sheet.naming text with
        | error fault =>
          simp only [hparse] at h
          cases h
        | ok parsed =>
          simp only [hparse] at h
          cases h
          exact ⟨rfl, text, rfl, hparse⟩
  · rintro ⟨hname, text, rfl, hparse⟩
    rw [hname]
    simp only [hparse]
    rfl

/-- A sheet that has taken in a content, with the cells of an order computed again. -/
def computed (tried : Sheet) (order : List String) : Sheet :=
  { tried with cells := recalculate tried.cells order, changed := true }

/-- Computing cells again leaves the contents as they have been taken in. -/
theorem contentOf_computed (sheet : Sheet) (n : String) (content : Option Content)
    (order : List String) (a : String) :
    contentOf ((sheet.assign n content).computed order).cells a
      = if a = n then content else contentOf sheet.cells a := by
  rw [computed, contentOf_recalculate, contentOf_assign]

/-- What comes of a content that has been accepted: it closes a cycle and leaves behind that some
names have been seen, or it is taken. -/
def Tried (sheet : Sheet) (n : String) (content : Option Content)
    (after : Except Refusal (List String) × Sheet) : Prop :=
  (∃ c, (sheet.assign n content).graph.order [n] = .error c
    ∧ after = (.error (.circular c), { sheet with graph := sheet.graph.seen n (readsFor content) }))
  ∨ ∃ order, (sheet.assign n content).graph.order [n] = .ok order
    ∧ after = (.ok order, (sheet.assign n content).computed order)

/-- What setting a content does to a consistent sheet: it is refused at once, or it is tried. -/
theorem setContents_cases (h : Consistent sheet) (name : Scalar) (raw : Option String) :
    (∃ refusal, sheet.accept name raw = .error refusal
        ∧ sheet.setContents name raw = (.error refusal, sheet))
    ∨ ∃ n content, sheet.accept name raw = .ok (n, content)
      ∧ sheet.Tried n content (sheet.setContents name raw) := by
  unfold setContents
  cases haccept : sheet.accept name raw with
  | error refusal => exact .inl ⟨refusal, rfl, rfl⟩
  | ok accepted =>
    obtain ⟨n, content⟩ := accepted
    refine .inr ⟨n, content, rfl, ?_⟩
    cases horder : (sheet.assign n content).graph.order [n] with
    | ok order => exact .inr ⟨order, horder, by simp only [horder, computed]⟩
    | error c =>
      refine .inl ⟨c, horder, ?_⟩
      simp only [horder]
      cases content with
      | none =>
        -- A cell that is emptied reads nothing, and closes no cycle.
        exact absurd rfl (h.reads_of_order_error horder)
      | some content =>
        have hgraph := Graph.restore_replaceDependees h.valid n (readsFor (some content))
        have hcells := Table.set_insert sheet.cells n ⟨content, .text ""⟩
        rw [putBack]
        simp only [assign, Table.set, Option.map_some] at hcells ⊢
        rw [hcells]
        exact congrArg (fun graph => (Except.error (Refusal.circular c), { sheet with graph }))
          hgraph

/-- Of two consistent sheets that accept the same, both refuse a content at once, or both try it. -/
theorem setContents_cases_both {sheet' : Sheet} (h : Consistent sheet) (h' : Consistent sheet')
    (hsame : sheet.accept = sheet'.accept) (name : Scalar) (raw : Option String) :
    (∃ refusal, sheet.setContents name raw = (.error refusal, sheet)
        ∧ sheet'.setContents name raw = (.error refusal, sheet'))
    ∨ ∃ n content, sheet.accept name raw = .ok (n, content)
      ∧ sheet.Tried n content (sheet.setContents name raw)
      ∧ sheet'.Tried n content (sheet'.setContents name raw) := by
  have hleft := setContents_cases h name raw
  have hright := setContents_cases h' name raw
  rw [← hsame] at hright
  rcases hleft with ⟨refusal, haccept, heq⟩ | ⟨n, content, haccept, htried⟩
  · rcases hright with ⟨refusal', haccept', heq'⟩ | ⟨n', content', haccept', -⟩
    · cases haccept.symm.trans haccept'
      exact .inl ⟨refusal, heq, heq'⟩
    · cases haccept.symm.trans haccept'
  · rcases hright with ⟨refusal', haccept', -⟩ | ⟨n', content', haccept', htried'⟩
    · cases haccept.symm.trans haccept'
    · cases haccept.symm.trans haccept'
      exact .inr ⟨n, content, haccept, htried, htried'⟩

namespace Consistent

/-- A graph with the same views does as well. -/
theorem of_same (h : Consistent sheet) {g : Graph} (hg : g.Valid) (hsame : g.Same sheet.graph) :
    Consistent { sheet with graph := g } := by
  have hdependents : g.dependents = sheet.graph.dependents := funext hsame.dependents
  refine ⟨hg, h.named, h.entered, ?_, ?_, h.upToDate⟩
  · simpa only [hdependents] using h.mirror
  · simpa only [hdependents] using h.acyclic

/-- So does a graph that has merely seen more names. -/
theorem seen (h : Consistent sheet) (n : String) (names : List String) :
    Consistent { sheet with graph := sheet.graph.seen n names } :=
  h.of_same (h.valid.seen n names) ((Graph.grown_seen sheet.graph n names).same h.valid)

/-- A content that is taken keeps the invariant. -/
theorem computed (h : Consistent sheet) {name : Scalar} {raw : Option String}
    (haccept : sheet.accept name raw = .ok (n, content)) {order : List String}
    (horder : (sheet.assign n content).graph.order [n] = .ok order) :
    Consistent ((sheet.assign n content).computed order) := by
  obtain ⟨hname, text, -, hparse⟩ := accept_eq_ok.mp haccept
  refine ⟨h.valid_assign, ?_, ?_, ?_, h.acyclic_assign horder, ?_⟩
  · intro a ha
    rw [Sheet.computed, names_recalculate] at ha
    have hfind := mt (Table.find?_eq_none_iff _ a).mp (not_not.mpr ha)
    rw [assign, Table.find?_set] at hfind
    split at hfind
    · next heq => exact ⟨name, heq ▸ hname⟩
    · exact h.named a (not_not.mp (mt (Table.find?_eq_none_iff _ a).mpr hfind))
  · intro a c ha
    rw [contentOf_computed] at ha
    split at ha
    · exact ⟨text, ha ▸ hparse⟩
    · exact h.entered a c ha
  · intro a b
    rw [Sheet.computed, readsOf_recalculate]
    exact h.mirror_assign a b
  · have hreads : ∀ a, ∀ v ∈ readsOf (sheet.assign n content).cells a,
        a ∈ (sheet.assign n content).graph.dependents v := by
      intro a v hv
      exact (h.mirror_assign v a).mpr hv
    refine upToDate_recalculate (h.order_settled horder).1 hreads ?_
    intro a ha
    exact h.upToDate_assign horder ha

/-- Setting a content keeps the invariant. -/
theorem setContents (h : Consistent sheet) (name : Scalar) (raw : Option String) :
    Consistent (sheet.setContents name raw).2 := by
  rcases setContents_cases h name raw with ⟨refusal, -, heq⟩ | ⟨n, content, haccept, hset⟩
  · rw [heq]
    exact h
  · rcases hset with ⟨c, -, heq⟩ | ⟨order, horder, heq⟩
    · rw [heq]
      exact h.seen n _
    · rw [heq]
      exact h.computed haccept horder

end Consistent

end Worksheet.Sheet
