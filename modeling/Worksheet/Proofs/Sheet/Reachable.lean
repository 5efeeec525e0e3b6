import Worksheet.Proofs.Result
import Worksheet.Proofs.Sheet.Consistent
import Worksheet.Sheet.Saved

/-!
# Reachable sheets

A sheet is reachable if it can come from one without cells, or from a saved one, by setting contents
and saving. Every reachable sheet is consistent.

* `Reachable.values_current`: no cell shows a value that its content does not have.
* `Reachable.graph_mirrors`: the graph holds what the formulas mention, and has no cycles.
-/

namespace Worksheet.Sheet

open Relation (ReflTransGen TransGen)
open Worksheet.Recalculation (Leads Settled)

/-- The sheets that can come up under a naming and a version. -/
inductive Reachable (naming : Naming) (version : String) : Sheet → Prop
  | empty : Reachable naming version (.empty naming version)
  | loaded {saved sheet} : load naming version saved = .ok sheet → Reachable naming version sheet
  | set {sheet} (name raw) : Reachable naming version sheet →
    Reachable naming version (sheet.setContents name raw).2
  | saved {sheet} : Reachable naming version sheet →
    Reachable naming version { sheet with changed := false }

/-! ### Loading

A sheet is loaded by setting its cells one after the other, so that what holds of a sheet when
contents are set holds of one that is loaded.
-/

/-- A cell that has been entered has been set. -/
theorem enter_ok {sheet sheet' : Sheet} {entry : String × Option String}
    (h : sheet.enter entry = .ok sheet') :
    ∃ order, sheet.setContents (.text entry.1) entry.2 = (.ok order, sheet') := by
  unfold enter at h
  split at h
  · next order sheet'' heq =>
    cases h
    exact ⟨order, heq⟩
  · cases h

/-- A saved cell is set if it is accepted and closes no cycle. -/
theorem enter_eq_ok {sheet sheet' : Sheet} (h : Consistent sheet)
    {entry : String × Option String} :
    sheet.enter entry = .ok sheet' ↔ ∃ n content order,
      sheet.accept (.text entry.1) entry.2 = .ok (n, content)
        ∧ (sheet.assign n content).graph.order [n] = .ok order
        ∧ (sheet.assign n content).computed order = sheet' := by
  unfold enter
  rcases setContents_cases h (.text entry.1) entry.2 with
    ⟨refusal, haccept, heq⟩ | ⟨n, content, haccept, ⟨c, hc, heq⟩ | ⟨order, horder, heq⟩⟩
  · rw [heq, haccept]
    simp
  · rw [heq]
    constructor
    · intro hentered
      cases hentered
    · rintro ⟨n', content', order, haccept', horder, -⟩
      cases haccept.symm.trans haccept'
      cases hc.symm.trans horder
  · rw [heq]
    constructor
    · intro hentered
      exact ⟨n, content, order, haccept, horder, Except.ok.inj hentered⟩
    · rintro ⟨n', content', order', haccept', horder', rfl⟩
      cases haccept.symm.trans haccept'
      cases horder.symm.trans horder'
      rfl

/-- What setting a content preserves, entering saved cells preserves. -/
theorem foldlM_enter_preserves {P : Sheet → Prop}
    (hset : ∀ sheet name raw, P sheet → P (sheet.setContents name raw).2)
    {entries : List (String × Option String)} {sheet sheet' : Sheet} (h : P sheet)
    (henter : entries.foldlM enter sheet = .ok sheet') : P sheet' := by
  induction entries generalizing sheet with
  | nil =>
    cases henter
    exact h
  | cons entry entries ih =>
    rw [List.foldlM_cons, bind_eq_ok] at henter
    obtain ⟨middle, hfirst, hrest⟩ := henter
    obtain ⟨order, heq⟩ := enter_ok hfirst
    refine ih ?_ hrest
    have := hset sheet (.text entry.1) entry.2 h
    rwa [heq] at this

/-- A sheet is loaded if the version is right and all cells can be entered. -/
theorem load_eq_ok {naming : Naming} {version : String} {saved : Saved (Option String)}
    {sheet : Sheet} :
    load naming version saved = .ok sheet ↔ saved.version = version
      ∧ ∃ entered, saved.cells.foldlM enter (empty naming version) = .ok entered
        ∧ { entered with changed := false } = sheet := by
  unfold load
  split
  · next hversion =>
    rw [bind_eq_ok]
    constructor
    · rintro ⟨entered, hentered, hsheet⟩
      exact ⟨hversion, entered, hentered, Except.ok.inj hsheet⟩
    · rintro ⟨-, entered, hentered, hsheet⟩
      exact ⟨entered, hentered, congrArg Except.ok hsheet⟩
  · next hversion =>
    constructor
    · intro h
      cases h
    · rintro ⟨h, -⟩
      exact absurd h hversion

/-! ### The invariant

Every reachable sheet comes from one without cells by setting contents, whatever has been saved or
loaded in between.
-/

/-- Setting a content leaves the naming and the version. -/
theorem settings_setContents (sheet : Sheet) (name : Scalar) (raw : Option String) :
    (sheet.setContents name raw).2.naming = sheet.naming
      ∧ (sheet.setContents name raw).2.version = sheet.version := by
  unfold setContents
  split
  · exact ⟨rfl, rfl⟩
  · dsimp only
    split <;> exact ⟨rfl, rfl⟩

/-- Whether a sheet counts as changed is no part of the invariant. -/
theorem Consistent.unchanged {sheet : Sheet} (h : Consistent sheet) :
    Consistent { sheet with changed := false } :=
  ⟨h.valid, h.named, h.entered, h.mirror, h.acyclic, h.upToDate⟩

namespace Reachable

variable {naming : Naming} {version : String} {sheet : Sheet}

/-- What holds of the sheet without cells, and is preserved by setting a content and by saving,
holds of every reachable sheet. -/
theorem preserves {P : Sheet → Prop} (hempty : P (.empty naming version))
    (hset : ∀ sheet name raw, P sheet → P (sheet.setContents name raw).2)
    (hsaved : ∀ sheet, P sheet → P { sheet with changed := false })
    (h : Reachable naming version sheet) : P sheet := by
  induction h with
  | empty => exact hempty
  | loaded hload =>
    obtain ⟨-, entered, hentered, rfl⟩ := load_eq_ok.mp hload
    exact hsaved entered (foldlM_enter_preserves hset hempty hentered)
  | set name raw _ ih => exact hset _ name raw ih
  | saved _ ih => exact hsaved _ ih

/-- The invariant holds of every reachable sheet. -/
theorem consistent (h : Reachable naming version sheet) : Consistent sheet :=
  h.preserves (consistent_empty naming version)
    (fun _ name raw hsheet => hsheet.setContents name raw) fun _ => Consistent.unchanged

/-- A reachable sheet keeps the naming and the version that it was made with. -/
theorem settings (h : Reachable naming version sheet) :
    sheet.naming = naming ∧ sheet.version = version := by
  refine h.preserves (P := fun sheet => sheet.naming = naming ∧ sheet.version = version)
    ⟨rfl, rfl⟩ ?_ fun _ hsheet => hsheet
  intro sheet name raw hsheet
  obtain ⟨hnaming, hversion⟩ := settings_setContents sheet name raw
  exact ⟨hnaming.trans hsheet.1, hversion.trans hsheet.2⟩

end Reachable

/-! ### Values

The invariant says that values are up to date. Here it is spelled out for each kind of content.
-/

namespace Consistent

variable {sheet : Sheet} {n : String} {cell : Cell}

/-- A number is its own value. -/
theorem value_of_number (h : Consistent sheet) (hcell : sheet.cells.find? n = some cell) {x : Float}
    (hx : cell.content = .number x) : cell.value = .number x := by
  rw [h.upToDate n cell hcell, hx]
  rfl

theorem value_of_text (h : Consistent sheet) (hcell : sheet.cells.find? n = some cell) {t : String}
    (ht : cell.content = .text t) : cell.value = .text t := by
  rw [h.upToDate n cell hcell, ht]
  rfl

/-- The value of a formula is the number that it comes to, or the error. -/
theorem value_of_formula (h : Consistent sheet) (hcell : sheet.cells.find? n = some cell)
    {f : Formula} (hf : cell.content = .formula f) :
    (∀ x, Id.run (f.evaluate (lookup sheet.cells)) = .ok x → cell.value = .number x)
      ∧ ∀ reason, Id.run (f.evaluate (lookup sheet.cells)) = .error reason →
        cell.value = .error reason := by
  have hvalue := h.upToDate n cell hcell
  rw [hf] at hvalue
  constructor
  · intro x hx
    rw [hvalue]
    exact Content.compute_formula_ok hx
  · intro reason hreason
    rw [hvalue]
    exact Content.compute_formula_error hreason

/-- Only formulas read cells, and they read those that they mention. -/
theorem mem_readsFor {content : Option Content} {a : String} :
    a ∈ readsFor content ↔ ∃ f, content = some (.formula f) ∧ f.Mentions a := by
  cases content with
  | none => simp [readsFor]
  | some content =>
    cases content with
    | number x => simp [readsFor, Content.reads]
    | text t => simp [readsFor, Content.reads]
    | formula f => simp [readsFor, Content.reads, Formula.mem_reads]

theorem mem_readsOf {cells : Table Cell} {a b : String} :
    a ∈ readsOf cells b ↔ ∃ f, contentOf cells b = some (.formula f) ∧ f.Mentions a :=
  mem_readsFor

/-- The names that a caller may hand over have an order of recalculation. -/
theorem exists_recalculationOrder (h : Consistent sheet) {names : List Scalar}
    (hnames : ∀ name ∈ names, ∃ n, sheet.naming.cell? name = some n) :
    ∃ order, sheet.recalculationOrder names = .ok order := by
  have hnormals : ∃ normals, names.mapM sheet.cellName = .ok normals := by
    induction names with
    | nil => exact ⟨[], rfl⟩
    | cons name names ih =>
      obtain ⟨n, hn⟩ := hnames name List.mem_cons_self
      obtain ⟨normals, hnormals⟩ := ih fun name hname => hnames name (List.mem_cons_of_mem _ hname)
      have hcell : sheet.cellName name = .ok n := by rw [cellName, hn]
      exact ⟨n :: normals, by rw [List.mapM_cons, hcell, hnormals]; rfl⟩
  obtain ⟨normals, hnormals⟩ := hnormals
  obtain ⟨order, horder⟩ := h.valid.exists_order h.acyclic normals
  refine ⟨order, ?_⟩
  rw [recalculationOrder, hnormals]
  exact congrArg (Except.mapError Refusal.circular) horder

end Consistent

namespace Reachable

variable {naming : Naming} {version : String} {sheet : Sheet}

/-- The graph holds what the formulas mention and has no cycles, so every order of recalculation
that a caller may ask for exists. -/
theorem graph_mirrors (h : Reachable naming version sheet) :
    (∀ n a, a ∈ sheet.graph.dependees n
      ↔ ∃ f, contentOf sheet.cells n = some (.formula f) ∧ f.Mentions a)
    ∧ (∀ n b, b ∈ sheet.graph.dependents n
      ↔ ∃ f, contentOf sheet.cells b = some (.formula f) ∧ f.Mentions n)
    ∧ (∀ n, ¬ TransGen (Leads sheet.graph.dependents) n n)
    ∧ ∀ names, (∀ name ∈ names, ∃ n, naming.cell? name = some n) →
      ∃ order, sheet.recalculationOrder names = .ok order := by
  have hsheet := h.consistent
  refine ⟨?_, ?_, hsheet.acyclic, ?_⟩
  · intro n a
    rw [hsheet.valid.mem_dependees, hsheet.mirror, Consistent.mem_readsOf]
  · intro n b
    rw [hsheet.mirror, Consistent.mem_readsOf]
  · intro names hnames
    rw [← h.settings.1] at hnames
    exact hsheet.exists_recalculationOrder hnames

/-- A formula depends on a cell that it mentions, and the cell has an order of recalculation. -/
theorem graph_mirrors_reference :
    ∃ sheet, Reachable .standard "1" sheet ∧ "B1" ∈ sheet.graph.dependents "A1"
      ∧ ∃ order, sheet.recalculationOrder [.text "A1"] = .ok order := by
  have h : Reachable .standard "1"
      ((Sheet.empty .standard "1").setContents (.text "B1") (some "=A1")).2 :=
    .set _ _ .empty
  obtain ⟨-, hdependents, -, horder⟩ := graph_mirrors h
  refine ⟨_, h, (hdependents "A1" "B1").mpr ⟨⟨[.operand (.variable "A1")]⟩, by cbv, ?_⟩,
    horder _ ?_⟩
  · exact List.mem_singleton_self _
  · intro name hname
    rw [List.mem_singleton.mp hname]
    exact ⟨"A1", by cbv⟩

end Reachable

end Worksheet.Sheet
