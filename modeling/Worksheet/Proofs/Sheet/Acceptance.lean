import Worksheet.Proofs.Cell
import Worksheet.Proofs.Formula.Outcome
import Worksheet.Proofs.Sheet.Reachable

/-!
# Which contents are refused

When setting a content is refused, and how. Names and texts are judged by themselves; whether a
formula closes a cycle is judged by what the formulas of the sheet mention before it is set.

* `Refused`: what has to be refused.
* `Consistent.cycle_iff_closes`: there is a cycle exactly if the new content mentions its own cell,
  or a cell that reads it through formulas of the sheet.
* `Consistent.number_or_fails`, `Consistent.valueOf_ne_malformed`: what formulas come to.
* `Reachable.setContents_refused_iff`: this is what is refused, and everything else is taken.
-/

namespace Worksheet.Sheet

open Relation (ReflTransGen TransGen)
open Worksheet.Recalculation (Leads)

/-- The value names the cell `n`: it is an identifier, and `n` is its normal form, an identifier
that is accepted. -/
def Names (naming : Naming) (name : Scalar) (n : String) : Prop :=
  ∃ s, name = .text s ∧ isIdentifier s = true ∧ naming.normalize s = n
    ∧ isIdentifier n = true ∧ naming.isValid n = true

/-- A formula is stored in the first cell that mentions the second. -/
def Reads (sheet : Sheet) (a b : String) : Prop :=
  ∃ f, contentOf sheet.cells a = some (.formula f) ∧ f.Mentions b

/-- A formula for `n` closes a cycle: it mentions `n`, or a cell that reads `n` through formulas
that are stored. -/
def Closes (sheet : Sheet) (n : String) (f : Formula) : Prop :=
  ∃ v, f.Mentions v ∧ (v = n ∨ TransGen sheet.Reads v n)

/-- What has to be refused of a sheet. -/
inductive Refused (sheet : Sheet) : Scalar → Option String → Refusal → Prop
  | invalidName {name : Scalar} {raw : Option String} : (∀ n, ¬ Names sheet.naming name n) →
    Refused sheet name raw (.invalidName name)
  | missingContent {name : Scalar} {n : String} : Names sheet.naming name n →
    Refused sheet name none .missingContent
  | formula {name : Scalar} {n text : String} {fault : Formula.Fault} : Names sheet.naming name n →
    Formula.parse sheet.naming text = .error fault →
    Refused sheet name (some ("=" ++ text)) (.formula fault)
  | circular {name : Scalar} {n text : String} {f : Formula} : Names sheet.naming name n →
    Formula.parse sheet.naming text = .ok f → sheet.Closes n f →
    Refused sheet name (some ("=" ++ text)) (.circular n)

/-! ### Names -/

/-- What names a cell can be computed. -/
theorem names_iff_cell? {naming : Naming} {name : Scalar} {n : String} :
    Names naming name n ↔ naming.cell? name = some n := by
  cases name with
  | text s =>
    simp only [Names, Scalar.text.injEq, exists_eq_left', Naming.cell?]
    constructor
    · rintro ⟨hs, hn⟩
      rw [if_pos hs]
      exact Formula.resolve?_eq_some.mpr hn
    · intro h
      split at h
      · next hs => exact ⟨hs, Formula.resolve?_eq_some.mp h⟩
      · cases h
  | nothing => simp [Names, Naming.cell?]
  | truth b => simp [Names, Naming.cell?]
  | integer i => simp [Names, Naming.cell?]
  | real x => simp [Names, Naming.cell?]

/-! ### Cycles

The search for an order finds a cycle in the graph after the content has been taken in. Since there
was none before, it leads through the new content, so it can be told from the sheet before.
-/

namespace Consistent

variable {sheet : Sheet} {n : String} {content : Option Content}

/-- A cell reads another if the graph leads from the other to it. -/
theorem reads_iff (h : Consistent sheet) {a b : String} :
    sheet.Reads a b ↔ Leads sheet.graph.dependents b a := by
  rw [Leads, h.mirror, mem_readsOf]
  rfl

/-- To read through others is to be reached along dependents. -/
theorem transGen_reads_iff (h : Consistent sheet) {a b : String} :
    TransGen sheet.Reads a b ↔ TransGen (Leads sheet.graph.dependents) b a := by
  have hswap : sheet.Reads = Function.swap (Leads sheet.graph.dependents) := by
    funext a b
    exact propext h.reads_iff
  rw [hswap, Relation.transGen_swap]

/-- The new edges close a cycle if and only if `n` led to a cell that the content reads before. -/
theorem cycle_iff (h : Consistent sheet) :
    TransGen (Leads (sheet.assign n content).graph.dependents) n n
      ↔ ∃ v ∈ readsFor content, ReflTransGen (Leads sheet.graph.dependents) n v := by
  have hold : ∀ a b, b ≠ n → (Leads (sheet.assign n content).graph.dependents a b
      ↔ Leads sheet.graph.dependents a b) := by
    intro a b hb
    rw [Leads, dependents_assign h.valid, if_neg hb]
    rfl
  have hnew : ∀ v, Leads (sheet.assign n content).graph.dependents v n ↔ v ∈ readsFor content := by
    intro v
    rw [Leads, dependents_assign h.valid, if_pos rfl]
  rw [TransGen.tail'_iff]
  constructor
  · rintro ⟨v, hv, hvn⟩
    refine ⟨v, (hnew v).mp hvn, Recalculation.reaches_of_away ?_ hv⟩
    intro a b hb
    exact (hold a b hb).mp
  · rintro ⟨v, hvn, hv⟩
    refine ⟨v, Recalculation.reaches_of_away ?_ hv, (hnew v).mpr hvn⟩
    intro a b hb
    exact (hold a b hb).mpr

/-- A cycle is found if and only if there is one. -/
theorem order_error_iff (h : Consistent sheet) :
    (∃ c, (sheet.assign n content).graph.order [n] = .error c)
      ↔ TransGen (Leads (sheet.assign n content).graph.dependents) n n := by
  constructor
  · rintro ⟨c, hc⟩
    exact h.transGen_assign (h.valid_assign.order_error hc)
  · intro hcycle
    cases horder : (sheet.assign n content).graph.order [n] with
    | error c => exact ⟨c, rfl⟩
    | ok order => exact absurd hcycle (h.acyclic_assign horder n)

/-- A content closes a cycle if and only if it is a formula that does. -/
theorem cycle_iff_closes (h : Consistent sheet) :
    TransGen (Leads (sheet.assign n content).graph.dependents) n n
      ↔ ∃ f, content = some (.formula f) ∧ sheet.Closes n f := by
  rw [h.cycle_iff]
  constructor
  · rintro ⟨v, hv, hreaches⟩
    obtain ⟨f, rfl, hmentions⟩ := mem_readsFor.mp hv
    refine ⟨f, rfl, v, hmentions, ?_⟩
    rwa [h.transGen_reads_iff, ← Relation.reflTransGen_iff_eq_or_transGen]
  · rintro ⟨f, rfl, v, hmentions, hreaches⟩
    refine ⟨v, mem_readsFor.mpr ⟨f, rfl, hmentions⟩, ?_⟩
    rwa [h.transGen_reads_iff, ← Relation.reflTransGen_iff_eq_or_transGen] at hreaches

end Consistent

/-! ### Values

What is taken is computed, and whatever formulas then come to is kept as the values of their cells. A
formula that is stored has passed the check of its symbols, so none of them is found malformed.
-/

/-- A formula finds a number where the sheet shows one. -/
theorem lookup_eq_number_iff {sheet : Sheet} {a : String} {x : Float} :
    lookup sheet.cells a = .number x ↔ sheet.valueOf a = .number x := by
  unfold lookup valueOf
  cases sheet.cells.find? a with
  | none => simp
  | some cell => cases h : cell.value <;> simp [h]

namespace Consistent

variable {sheet : Sheet} {a : String} {f : Formula}

/-- A formula that is stored has been read from a text. -/
theorem exists_parse (h : Consistent sheet) (hf : contentOf sheet.cells a = some (.formula f)) :
    ∃ text, Formula.parse sheet.naming text = .ok f := by
  obtain ⟨raw, hraw⟩ := h.entered a _ hf
  obtain ⟨text, -, hparse⟩ := Content.parse_eq_formula_iff.mp hraw
  exact ⟨text, hparse⟩

/-- The value of a formula cell is what its formula comes to in the sheet as it is. -/
theorem valueOf_formula (h : Consistent sheet)
    (hf : contentOf sheet.cells a = some (.formula f)) :
    (∃ x, Id.run (f.evaluate (lookup sheet.cells)) = .ok x ∧ sheet.valueOf a = .number x)
      ∨ ∃ reason, Id.run (f.evaluate (lookup sheet.cells)) = .error reason
          ∧ sheet.valueOf a = .error reason := by
  obtain ⟨cell, hcell, hcontent⟩ := Option.map_eq_some_iff.mp hf
  have hvalue : sheet.valueOf a = cell.value := by rw [valueOf, hcell]; rfl
  obtain ⟨hok, herror⟩ := h.value_of_formula hcell hcontent
  rw [hvalue]
  cases hresult : Id.run (f.evaluate (lookup sheet.cells)) with
  | ok x => exact .inl ⟨x, rfl, hok x hresult⟩
  | error reason => exact .inr ⟨reason, rfl, herror reason hresult⟩

/-- A formula cell holds a number, and then so do all cells that it reads, or it fails, and names a
variable only if the cell of that name holds no number. -/
theorem number_or_fails (h : Consistent sheet)
    (hf : contentOf sheet.cells a = some (.formula f)) :
    (∃ x, sheet.valueOf a = .number x ∧ ∀ v, f.Mentions v → ∃ y, sheet.valueOf v = .number y)
      ∨ sheet.valueOf a = .error .divisionByZero
      ∨ ∃ v, f.Mentions v ∧ (∀ y, sheet.valueOf v ≠ .number y)
          ∧ sheet.valueOf a = .error (.undefinedVariable v) := by
  obtain ⟨text, hparse⟩ := h.exists_parse hf
  rcases h.valueOf_formula hf with ⟨x, hx, hvalue⟩ | ⟨reason, hreason, hvalue⟩
  · refine .inl ⟨x, hvalue, fun v hv => ?_⟩
    obtain ⟨y, hy⟩ := Formula.lookup_of_evaluate_ok hparse hx hv
    exact ⟨y, lookup_eq_number_iff.mp hy⟩
  · rcases Formula.evaluate_error hparse hreason with rfl | ⟨v, hv, hlookup, rfl⟩
    · exact .inr (.inl hvalue)
    · refine .inr (.inr ⟨v, hv, fun y hy => ?_, hvalue⟩)
      cases hlookup.symm.trans (lookup_eq_number_iff.mpr hy)

/-- No cell is found to hold a formula that is none. -/
theorem valueOf_ne_malformed (h : Consistent sheet) (a : String) (fault : Expr.Malformed) :
    sheet.valueOf a ≠ .error (.malformed fault) := by
  intro hvalue
  have hvalueOf : sheet.valueOf a = ((sheet.cells.find? a).map Cell.value).getD (.text "") := rfl
  cases hcell : sheet.cells.find? a with
  | none =>
    rw [hvalueOf, hcell] at hvalue
    cases hvalue
  | some cell =>
    have hcontents : contentOf sheet.cells a = some cell.content := by rw [contentOf, hcell]; rfl
    have hstored : sheet.valueOf a = cell.value := by rw [hvalueOf, hcell]; rfl
    cases hcontent : cell.content with
    | number x =>
      rw [hstored, h.value_of_number hcell hcontent] at hvalue
      cases hvalue
    | text t =>
      rw [hstored, h.value_of_text hcell hcontent] at hvalue
      cases hvalue
    | formula f =>
      rw [hcontent] at hcontents
      rcases h.number_or_fails hcontents with ⟨x, hx, -⟩ | hzero | ⟨v, -, -, hv⟩
      · cases hx.symm.trans hvalue
      · cases hzero.symm.trans hvalue
      · cases hv.symm.trans hvalue

end Consistent

/-! ### Refusals

What has to be refused is refused, and for that reason: by `refused_of_setContents` nothing else is,
and by `setContents_of_refused` nothing less.
-/

section

variable {sheet : Sheet} {name : Scalar} {raw : Option String} {n text : String}

/-- A value that names no cell is refused for that, whatever the content. -/
theorem accept_of_unnamed (h : sheet.naming.cell? name = none) :
    sheet.accept name raw = .error (.invalidName name) := by
  rw [accept, cellName, h]
  rfl

theorem accept_of_missing (h : sheet.naming.cell? name = some n) :
    sheet.accept name none = .error .missingContent := by
  rw [accept, cellName, h]
  rfl

theorem accept_of_fault {fault : Formula.Fault} (h : sheet.naming.cell? name = some n)
    (hparse : Content.parse sheet.naming text = .error fault) :
    sheet.accept name (some text) = .error (.formula fault) := by
  simp only [accept, cellName, h, hparse]
  rfl

theorem setContents_of_unaccepted {refusal : Refusal} (h : sheet.accept name raw = .error refusal) :
    (sheet.setContents name raw).1 = .error refusal := by
  rw [setContents, h]

/-- What is not accepted has to be refused. -/
theorem refused_of_accept {refusal : Refusal} (h : sheet.accept name raw = .error refusal) :
    sheet.Refused name raw refusal := by
  cases hname : sheet.naming.cell? name with
  | none =>
    cases h.symm.trans (accept_of_unnamed hname)
    apply Refused.invalidName
    intro n hn
    cases hname.symm.trans (names_iff_cell?.mp hn)
  | some n =>
    have hn : Names sheet.naming name n := names_iff_cell?.mpr hname
    cases raw with
    | none =>
      cases h.symm.trans (accept_of_missing hname)
      exact .missingContent hn
    | some text =>
      cases hparse : Content.parse sheet.naming text with
      | ok content =>
        cases h.symm.trans (accept_eq_ok.mpr ⟨hname, text, rfl, hparse⟩)
      | error fault =>
        cases h.symm.trans (accept_of_fault hname hparse)
        obtain ⟨rest, rfl, hrest⟩ := Content.parse_eq_error_iff.mp hparse
        exact .formula hn hrest

namespace Consistent

/-- What is refused had to be refused. -/
theorem refused_of_setContents (h : Consistent sheet) {refusal : Refusal}
    (hrefused : (sheet.setContents name raw).1 = .error refusal) :
    sheet.Refused name raw refusal := by
  rcases setContents_cases h name raw with ⟨refusal', haccept, heq⟩ | ⟨n, content, haccept, htried⟩
  · rw [heq] at hrefused
    cases hrefused
    exact refused_of_accept haccept
  · rcases htried with ⟨c, hc, heq⟩ | ⟨order, -, heq⟩
    · rw [heq] at hrefused
      cases hrefused
      obtain rfl := h.order_error_eq hc
      obtain ⟨hname, text, rfl, hparse⟩ := accept_eq_ok.mp haccept
      obtain ⟨f, rfl, hcloses⟩ := h.cycle_iff_closes.mp (h.order_error_iff.mp ⟨_, hc⟩)
      obtain ⟨rest, rfl, hrest⟩ := Content.parse_eq_formula_iff.mp hparse
      exact .circular (names_iff_cell?.mpr hname) hrest hcloses
    · rw [heq] at hrefused
      cases hrefused

/-- What has to be refused is refused. -/
theorem setContents_of_refused (h : Consistent sheet) {refusal : Refusal}
    (hrefused : sheet.Refused name raw refusal) :
    (sheet.setContents name raw).1 = .error refusal := by
  cases hrefused with
  | invalidName hname =>
    apply setContents_of_unaccepted
    apply accept_of_unnamed
    cases hcell : sheet.naming.cell? name with
    | none => rfl
    | some n => exact absurd (names_iff_cell?.mpr hcell) (hname n)
  | missingContent hname =>
    apply setContents_of_unaccepted
    exact accept_of_missing (names_iff_cell?.mp hname)
  | formula hname hparse =>
    apply setContents_of_unaccepted
    exact accept_of_fault (names_iff_cell?.mp hname)
      (Content.parse_eq_error_iff.mpr ⟨_, rfl, hparse⟩)
  | @circular n text f hname hparse hcloses =>
    have hcontent := Content.parse_eq_formula_iff.mpr ⟨text, rfl, hparse⟩
    have haccept := accept_eq_ok.mpr ⟨names_iff_cell?.mp hname, _, rfl, hcontent⟩
    obtain ⟨c, hc⟩ := h.order_error_iff.mpr (h.cycle_iff_closes.mpr ⟨f, rfl, hcloses⟩)
    rcases setContents_cases h name (some ("=" ++ text)) with
      ⟨refusal', haccept', -⟩ | ⟨n', content, haccept', htried⟩
    · cases haccept.symm.trans haccept'
    · cases haccept.symm.trans haccept'
      rcases htried with ⟨c', hc', heq⟩ | ⟨order, horder, -⟩
      · rw [heq, h.order_error_eq hc']
      · cases hc.symm.trans horder

end Consistent

end

namespace Reachable

variable {naming : Naming} {version : String} {sheet : Sheet}

/-- Setting a content is refused for the reasons that there are to refuse it, each with its own
refusal, and for no other; a cycle is reported with the cell that is set. What there is no reason to
refuse is taken. Either way no cell is found to hold a formula that is malformed, so computing the
cells gives no other reason to stop. -/
theorem setContents_refused_iff (h : Reachable naming version sheet) (name : Scalar)
    (raw : Option String) :
    sheet.naming = naming
      ∧ (∀ refusal, (sheet.setContents name raw).1 = .error refusal
        ↔ sheet.Refused name raw refusal)
      ∧ ((∃ order, (sheet.setContents name raw).1 = .ok order)
        ↔ ∀ refusal, ¬ sheet.Refused name raw refusal)
      ∧ ∀ a fault, (sheet.setContents name raw).2.valueOf a ≠ .error (.malformed fault) := by
  have hrefused : ∀ refusal, (sheet.setContents name raw).1 = .error refusal
      ↔ sheet.Refused name raw refusal := by
    intro refusal
    exact ⟨h.consistent.refused_of_setContents, h.consistent.setContents_of_refused⟩
  refine ⟨h.settings.1, hrefused, ?_, (h.consistent.setContents name raw).valueOf_ne_malformed⟩
  simp only [← hrefused]
  cases (sheet.setContents name raw).1 with
  | ok order => simp
  | error refusal => simp

/-- A formula that reads its own cell through another cell is refused. -/
theorem setContents_refused_iff_circular :
    ∃ sheet, Reachable .standard "1" sheet
      ∧ (sheet.setContents (.text "A1") (some ("=" ++ "B1"))).1 = .error (.circular "A1") := by
  have h : Reachable .standard "1"
      ((Sheet.empty .standard "1").setContents (.text "B1") (some "=A1")).2 :=
    .set _ _ .empty
  have hcontent : contentOf ((Sheet.empty .standard "1").setContents (.text "B1")
      (some "=A1")).2.cells "B1" = some (.formula ⟨[.operand (.variable "A1")]⟩) := by cbv
  obtain ⟨hnaming, hrefused, -⟩ := setContents_refused_iff h (.text "A1") (some ("=" ++ "B1"))
  refine ⟨_, h, (hrefused _).mpr ?_⟩
  have hname : Names .standard (.text "A1") "A1" := names_iff_cell?.mpr (by cbv)
  have hparse : Formula.parse .standard "B1" = .ok ⟨[.operand (.variable "B1")]⟩ := by cbv
  rw [← hnaming] at hname hparse
  refine .circular hname hparse ⟨"B1", List.mem_singleton_self _, .inr (.single ⟨_, hcontent, ?_⟩)⟩
  exact List.mem_singleton_self _

end Reachable

end Worksheet.Sheet
