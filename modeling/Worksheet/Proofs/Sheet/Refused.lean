import Worksheet.Proofs.Sheet.Desk
import Worksheet.Sheet.Calls

/-!
# Refused contents

A sheet that has refused a content cannot be told from the sheet before: its graph may have seen
more names, and that shows in no answer, then or later.

* `Sheet.Alike`, `Desk.Alike`: what looks the same to every caller.
* `Desk.Twins.run`: what is alike answers alike, and stays alike.
* `Reachable.refused_invisible`: a refused content changes nothing that can be seen.
-/

namespace Worksheet

variable {σ ε δ : Type}

/-- Two sheets that differ at most in how their graphs number the names. -/
structure Sheet.Alike (sheet sheet' : Sheet) : Prop where
  naming : sheet.naming = sheet'.naming
  version : sheet.version = sheet'.version
  cells : sheet.cells = sheet'.cells
  changed : sheet.changed = sheet'.changed
  graph : sheet.graph.Same sheet'.graph

/-- Two desks whose sheets are alike, with the same state of what is stored. -/
structure Desk.Alike (desk desk' : Desk σ) : Prop where
  sheet : desk.sheet.Alike desk'.sheet
  state : desk.state = desk'.state

/-! ### Sheets

Two sheets that are alike differ in the slots of names, which no answer shows. What is set next
leaves them alike only if they are consistent, so both are kept together.
-/

namespace Sheet

theorem Alike.refl (sheet : Sheet) : Alike sheet sheet := ⟨rfl, rfl, rfl, rfl, .refl _⟩

/-- Consistent sheets that are alike. -/
structure Twins (sheet sheet' : Sheet) : Prop where
  alike : sheet.Alike sheet'
  left : sheet.Consistent
  right : sheet'.Consistent

namespace Twins

variable {sheet sheet' : Sheet}

theorem refl (h : sheet.Consistent) : Twins sheet sheet := ⟨.refl sheet, h, h⟩

/-- A sheet like another is the other with its own graph. -/
theorem eq_with (h : Twins sheet sheet') : sheet = { sheet' with graph := sheet.graph } := by
  obtain ⟨naming, version, cells, graph, changed⟩ := sheet
  obtain ⟨⟨hnaming, hversion, hcells, hchanged, -⟩, -, -⟩ := h
  simp_all

theorem cellName (h : Twins sheet sheet') : sheet.cellName = sheet'.cellName := by
  rw [h.eq_with]
  rfl

theorem accept (h : Twins sheet sheet') : sheet.accept = sheet'.accept := by
  rw [h.eq_with]
  rfl

/-- A content that is taken in has the same order of recalculation in both, or the same cycle. -/
theorem order_assign (h : Twins sheet sheet') (n : String) (content : Option Content) :
    (sheet.assign n content).graph.order [n] = (sheet'.assign n content).graph.order [n] := by
  refine Graph.Same.order ?_ h.left.valid_assign h.right.valid_assign _
  exact h.alike.graph.replaceDependees h.left.valid h.right.valid n _

theorem assign_cells (h : Twins sheet sheet') (n : String) (content : Option Content) :
    (sheet.assign n content).cells = (sheet'.assign n content).cells := by
  rw [assign, assign, h.alike.cells]

/-- A graph that has merely seen more names makes no difference. -/
theorem of_seen (h : sheet.Consistent) (n : String) (names : List String) :
    Twins { sheet with graph := sheet.graph.seen n names } sheet :=
  ⟨⟨rfl, rfl, rfl, rfl, (Graph.grown_seen sheet.graph n names).same h.valid⟩, h.seen n names, h⟩

theorem symm (h : Twins sheet sheet') : Twins sheet' sheet :=
  ⟨⟨h.alike.naming.symm, h.alike.version.symm, h.alike.cells.symm, h.alike.changed.symm,
    h.alike.graph.symm⟩, h.right, h.left⟩

theorem trans {sheet'' : Sheet} (h : Twins sheet sheet') (h' : Twins sheet' sheet'') :
    Twins sheet sheet'' :=
  ⟨⟨h.alike.naming.trans h'.alike.naming, h.alike.version.trans h'.alike.version,
    h.alike.cells.trans h'.alike.cells, h.alike.changed.trans h'.alike.changed,
    h.alike.graph.trans h'.alike.graph⟩, h.left, h'.right⟩

/-- Setting a content has the same result for both, and leaves them alike. -/
theorem setContents (h : Twins sheet sheet') (name : Scalar) (raw : Option String) :
    (sheet.setContents name raw).1 = (sheet'.setContents name raw).1
      ∧ Twins (sheet.setContents name raw).2 (sheet'.setContents name raw).2 := by
  have hleft := h.left.setContents name raw
  have hright := h.right.setContents name raw
  rcases setContents_cases_both h.left h.right h.accept name raw with
    ⟨refusal, heq, heq'⟩ | ⟨n, content, -, htried, htried'⟩
  · rw [heq, heq']
    exact ⟨rfl, h⟩
  · have horder := h.order_assign n content
    rcases htried with ⟨c, hc, heq⟩ | ⟨order, ho, heq⟩
    · rcases htried' with ⟨c', hc', heq'⟩ | ⟨order', ho', -⟩
      · -- Both are refused, and are left with graphs that have merely seen more names.
        rw [horder, hc'] at hc
        cases hc
        rw [heq, heq']
        exact ⟨rfl, ((of_seen h.left n _).trans h).trans (of_seen h.right n _).symm⟩
      · rw [horder, ho'] at hc
        cases hc
    · rcases htried' with ⟨c', hc', -⟩ | ⟨order', ho', heq'⟩
      · rw [horder, hc'] at ho
        cases ho
      · rw [horder, ho'] at ho
        cases ho
        rw [heq] at hleft ⊢
        rw [heq'] at hright ⊢
        refine ⟨rfl, ⟨h.alike.naming, h.alike.version, ?_, rfl, ?_⟩, hleft, hright⟩
        · exact congrArg (recalculate · order) (h.assign_cells n content)
        · exact h.alike.graph.replaceDependees h.left.valid h.right.valid n _

/-- Both may be taken for unchanged. -/
theorem unchanged (h : Twins sheet sheet') :
    Twins { sheet with changed := false } { sheet' with changed := false } :=
  ⟨⟨h.alike.naming, h.alike.version, h.alike.cells, rfl, h.alike.graph⟩, h.left.unchanged,
    h.right.unchanged⟩

/-- Both answer with the same orders of recalculation. -/
theorem recalculationOrder (h : Twins sheet sheet') (names : List Scalar) :
    sheet.recalculationOrder names = sheet'.recalculationOrder names := by
  have horder : sheet.graph.order = sheet'.graph.order :=
    funext fun starts => h.alike.graph.order h.left.valid h.right.valid starts
  rw [Sheet.recalculationOrder, Sheet.recalculationOrder, h.cellName, horder]

theorem directDependents (h : Twins sheet sheet') (name : Scalar) :
    sheet.directDependents name = sheet'.directDependents name := by
  rw [Sheet.directDependents, Sheet.directDependents, h.cellName, funext h.alike.graph.dependents]

theorem contents (h : Twins sheet sheet') (name : Scalar) :
    sheet.contents name = sheet'.contents name := by
  rw [h.eq_with]
  rfl

theorem value (h : Twins sheet sheet') (name : Scalar) : sheet.value name = sheet'.value name := by
  rw [h.eq_with]
  rfl

theorem shown (h : Twins sheet sheet') : sheet.shown = sheet'.shown := by
  unfold Sheet.shown
  rw [h.alike.version, h.alike.cells]

/-- The same is saved of both. -/
theorem saved (h : Twins sheet sheet') : sheet.saved = sheet'.saved := by
  rw [h.eq_with]
  rfl

end Twins

end Sheet

/-! ### Desks

The relation is carried over to desks, where a call has an answer and leaves a desk. It is a
bisimulation: `call` is its step and `run` follows by induction.
-/

namespace Desk

/-- Desks that are alike, with consistent sheets. -/
structure Twins (desk desk' : Desk σ) : Prop where
  sheet : desk.sheet.Twins desk'.sheet
  state : desk.state = desk'.state

namespace Twins

variable {desk desk' : Desk σ}

/-- Desks that keep on being alike are so now. -/
theorem alike (h : Twins desk desk') : desk.Alike desk' := ⟨h.sheet.alike, h.state⟩

/-- Each gets another sheet, and these are alike. -/
theorem with_sheet (h : Twins desk desk') {sheet sheet' : Sheet} (hsheet : sheet.Twins sheet') :
    Twins { desk with sheet } { desk' with sheet := sheet' } :=
  ⟨hsheet, h.state⟩

/-- Saving has the same result for both, and leaves them alike. -/
theorem save (h : Twins desk desk') (storage : Storage σ ε δ) (file : String) :
    (desk.save storage file).1 = (desk'.save storage file).1
      ∧ Twins (desk.save storage file).2 (desk'.save storage file).2 := by
  have hwrite : storage.write desk.state file desk.sheet.saved
      = storage.write desk'.state file desk'.sheet.saved := by
    rw [h.state, h.sheet.saved]
  rcases desk.save_cases storage file with ⟨fault, state, hw, heq⟩ | ⟨state, hw, heq⟩
  all_goals
    rcases desk'.save_cases storage file with ⟨fault', state', hw', heq'⟩ | ⟨state', hw', heq'⟩
    all_goals
      cases hw.symm.trans (hwrite.trans hw')
  · rw [heq, heq']
    exact ⟨rfl, h.sheet, rfl⟩
  · rw [heq, heq']
    exact ⟨rfl, h.sheet.unchanged, rfl⟩

/-- Loading has the same result for both, and leaves them alike. -/
theorem load (h : Twins desk desk') (storage : Storage σ ε δ) (file : String) (naming : Naming)
    (version : String) :
    (desk.load storage file naming version).1 = (desk'.load storage file naming version).1
      ∧ Twins (desk.load storage file naming version).2
          (desk'.load storage file naming version).2 := by
  rcases desk.load_cases storage file naming version with
    ⟨fault, hread, heq⟩ | ⟨saved, fault, hread, hload, heq⟩ | ⟨saved, sheet, hread, hload, heq⟩
  · rw [h.state] at hread
    rw [heq, load_of_missing hread]
    exact ⟨rfl, h⟩
  · rw [h.state] at hread
    rw [heq, load_of_refused hread hload]
    exact ⟨rfl, h⟩
  · -- What is loaded is the same sheet for both, and a consistent one.
    rw [h.state] at hread
    rw [heq, load_of_stored hread hload]
    exact ⟨rfl, h.with_sheet (.refl (Sheet.Reachable.loaded hload).consistent)⟩

/-- Alike desks answer a call alike, and stay alike. -/
theorem call (h : Twins desk desk') (call : Call σ ε δ) :
    (desk.call call).1 = (desk'.call call).1 ∧ Twins (desk.call call).2 (desk'.call call).2 := by
  have hsheet := h.sheet
  cases call with
  | set name raw =>
    obtain ⟨hresult, hafter⟩ := hsheet.setContents name raw
    exact ⟨congrArg Answer.order hresult, h.with_sheet hafter⟩
  | contents name => exact ⟨congrArg Answer.contents (hsheet.contents name), h⟩
  | typed name =>
    refine ⟨congrArg Answer.typed ?_, h⟩
    rw [Sheet.typed, Sheet.typed, hsheet.contents]
  | value name => exact ⟨congrArg Answer.value (hsheet.value name), h⟩
  | dependents name => exact ⟨congrArg Answer.order (hsheet.directDependents name), h⟩
  | recalculation names => exact ⟨congrArg Answer.order (hsheet.recalculationOrder names), h⟩
  | names =>
    refine ⟨congrArg Answer.names ?_, h⟩
    rw [hsheet.alike.cells]
  | changed => exact ⟨congrArg Answer.changed hsheet.alike.changed, h⟩
  | version => exact ⟨congrArg Answer.text hsheet.alike.version, h⟩
  | shown => exact ⟨congrArg Answer.text hsheet.shown, h⟩
  | fresh naming version =>
    exact ⟨rfl, h.with_sheet (.refl (Sheet.consistent_empty naming version))⟩
  | save storage file =>
    obtain ⟨hresult, hafter⟩ := h.save storage file
    exact ⟨congrArg Answer.saved hresult, hafter⟩
  | load storage file naming version =>
    obtain ⟨hresult, hafter⟩ := h.load storage file naming version
    exact ⟨congrArg Answer.loaded hresult, hafter⟩
  | savedVersion storage file =>
    refine ⟨congrArg Answer.version ?_, h⟩
    rw [h.state]

/-- Alike desks answer all calls alike, and stay alike. -/
theorem run (h : Twins desk desk') (calls : List (Call σ ε δ)) :
    (desk.run calls).1 = (desk'.run calls).1 ∧ Twins (desk.run calls).2 (desk'.run calls).2 := by
  induction calls generalizing desk desk' with
  | nil => exact ⟨rfl, h⟩
  | cons call calls ih =>
    obtain ⟨hanswer, hafter⟩ := h.call call
    obtain ⟨hanswers, hend⟩ := ih hafter
    exact ⟨congrArg₂ List.cons hanswer hanswers, hend⟩

end Twins

end Desk

namespace Sheet.Reachable

variable {naming : Naming} {version : String} {sheet : Sheet}

/-- A refused content cannot be seen: the sheet is like the one before, both views of its graph list
the same names in the same order, and every later run of calls, with whatever storages, has the same
answers and leads to desks that are alike. -/
theorem refused_invisible (h : Reachable naming version sheet) {name : Scalar}
    {raw : Option String} {refusal : Refusal}
    (hrefused : (sheet.setContents name raw).1 = .error refusal) :
    (sheet.setContents name raw).2.Alike sheet
      ∧ ∀ {σ ε δ : Type} (state : σ) (calls : List (Call σ ε δ)),
        (Desk.run ⟨(sheet.setContents name raw).2, state⟩ calls).1
            = (Desk.run ⟨sheet, state⟩ calls).1
          ∧ (Desk.run ⟨(sheet.setContents name raw).2, state⟩ calls).2.Alike
              (Desk.run ⟨sheet, state⟩ calls).2 := by
  have hsheet := h.consistent
  have htwins : (sheet.setContents name raw).2.Twins sheet := by
    rcases setContents_cases hsheet name raw with ⟨_, -, heq⟩ | ⟨n, content, -, hset⟩
    · rw [heq]
      exact .refl hsheet
    · rcases hset with ⟨c, -, heq⟩ | ⟨order, -, heq⟩
      · rw [heq]
        exact .of_seen hsheet n _
      · rw [heq] at hrefused
        cases hrefused
  refine ⟨htwins.alike, ?_⟩
  intro σ ε δ state calls
  have hdesks : Desk.Twins ⟨(sheet.setContents name raw).2, state⟩ ⟨sheet, state⟩ :=
    ⟨htwins, rfl⟩
  obtain ⟨hanswers, hend⟩ := hdesks.run calls
  exact ⟨hanswers, hend.alike⟩

/-- A formula that closes a cycle is refused, and the cell keeps its content. -/
theorem refused_invisible_circular :
    ∃ sheet, Reachable .standard "1" sheet
      ∧ (sheet.setContents (.text "A1") (some "=B1")).1 = .error (.circular "A1")
      ∧ (sheet.setContents (.text "A1") (some "=B1")).2.Alike sheet := by
  have h : Reachable .standard "1"
      ((Sheet.empty .standard "1").setContents (.text "B1") (some "=A1")).2 :=
    .set _ _ .empty
  have hrefused : (((Sheet.empty .standard "1").setContents (.text "B1") (some "=A1")).2.setContents
      (.text "A1") (some "=B1")).1 = .error (.circular "A1") := by cbv
  exact ⟨_, h, hrefused, (refused_invisible h hrefused).1⟩

end Sheet.Reachable

end Worksheet
