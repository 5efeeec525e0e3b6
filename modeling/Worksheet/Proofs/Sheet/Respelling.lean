import Worksheet.Proofs.Cell
import Worksheet.Proofs.Formula.Respelling
import Worksheet.Proofs.Sheet.Desk
import Worksheet.Sheet.Calls

/-!
# Spelling of names

Names matter to a sheet only through their normal forms. Two runs of calls that differ in how the
names of cells are spelled, as names handed over or as variables in formulas, get the same answers
and lead to the same desk; only a refusal may quote the name as it was spelled.

* `Call.Respelled`: two calls that differ in spelling, and `Answer.Alike`: what may differ then.
* `Desk.call_respelled` and `Desk.run_respelled`: one such call, and a run of them.
* `Naming.spelling_invisible`: the same of all runs, with what a name in a formula stands for.
-/

namespace Worksheet

open Worksheet.Formula (Respelling scan check)

variable {σ ε δ : Type}

/-- Two values handed over as names: the same, or one name spelled in two ways. -/
inductive Naming.SameName (naming : Naming) : Scalar → Scalar → Prop
  | same (name : Scalar) : SameName naming name name
  | respelled {s s' : String} : naming.Synonyms s s' → SameName naming (.text s) (.text s')

/-- Two contents handed over: the same, or a formula whose symbols are in order, with variables
spelled in two ways. -/
inductive Naming.SameContent (naming : Naming) : Option String → Option String → Prop
  | same (raw : Option String) : SameContent naming raw raw
  | respelled {text text' : String} {symbols : List (Expr.Symbol Formula.Term)} :
    scan text.toList = .ok symbols → check symbols = .ok () →
    Respelling naming text.toList text'.toList →
    SameContent naming (some ("=" ++ text)) (some ("=" ++ text'))

/-- Whether a call puts another sheet in the place of the present one. -/
def Call.replacesSheet : Call σ ε δ → Bool
  | .fresh _ _ | .load _ _ _ _ => true
  | _ => false

/-- Two calls that differ at most in how names are spelled. -/
inductive Call.Respelled (naming : Naming) : Call σ ε δ → Call σ ε δ → Prop
  | set {name name' : Scalar} {raw raw' : Option String} : naming.SameName name name' →
    naming.SameContent raw raw' → Respelled naming (.set name raw) (.set name' raw')
  | contents {name name' : Scalar} : naming.SameName name name' →
    Respelled naming (.contents name) (.contents name')
  | typed {name name' : Scalar} : naming.SameName name name' →
    Respelled naming (.typed name) (.typed name')
  | value {name name' : Scalar} : naming.SameName name name' →
    Respelled naming (.value name) (.value name')
  | dependents {name name' : Scalar} : naming.SameName name name' →
    Respelled naming (.dependents name) (.dependents name')
  | recalculation {names names' : List Scalar} : List.Forall₂ naming.SameName names names' →
    Respelled naming (.recalculation names) (.recalculation names')
  | same {call : Call σ ε δ} : call.replacesSheet = false → Respelled naming call call

/-- Two refusals that are the same but for the spelling of a name that they quote. -/
inductive Refusal.Alike : Refusal → Refusal → Prop
  | same (refusal : Refusal) : Alike refusal refusal
  | name (name name' : Scalar) : Alike (.invalidName name) (.invalidName name')
  | formula {fault fault' : Formula.Fault} : fault.Alike fault' →
    Alike (.formula fault) (.formula fault')

/-- Two answers that are the same, or refusals that are alike. -/
inductive Answer.Alike : Answer ε δ → Answer ε δ → Prop
  | same (answer : Answer ε δ) : Alike answer answer
  | order {x y : Except Refusal (List String)} : EqualUpTo Refusal.Alike x y →
    Alike (.order x) (.order y)
  | contents {x y : Except Refusal (Option Content)} : EqualUpTo Refusal.Alike x y →
    Alike (.contents x) (.contents y)
  | typed {x y : Except Refusal String} : EqualUpTo Refusal.Alike x y → Alike (.typed x) (.typed y)
  | value {x y : Except Refusal Value} : EqualUpTo Refusal.Alike x y → Alike (.value x) (.value y)

/-! ### Names and contents -/

/-- The two name the same cell, or neither names one. -/
theorem Naming.SameName.cell? {naming : Naming} {name name' : Scalar}
    (h : naming.SameName name name') : naming.cell? name = naming.cell? name' := by
  cases h with
  | same => rfl
  | respelled hsynonyms =>
    rw [Naming.cell?, Naming.cell?, if_pos hsynonyms.left, if_pos hsynonyms.right,
      hsynonyms.resolve?]

/-- The two are read as the same content, or are at fault alike. -/
theorem Naming.SameContent.parse {naming : Naming} {raw raw' : String}
    (h : naming.SameContent (some raw) (some raw')) :
    EqualUpTo Formula.Fault.Alike (Content.parse naming raw) (Content.parse naming raw') := by
  cases h with
  | same => exact .refl .same _
  | respelled hscan hcheck hrespelling =>
    rw [Content.parse_formula, Content.parse_formula]
    exact (Formula.parse_respelled hrespelling hscan hcheck).map _

/-! ### Sheets

What is asked of a sheet is asked under the normal form of a name. A name without one is refused,
and the refusal quotes it; nothing else in an answer depends on the spelling.
-/

namespace Sheet

variable {sheet : Sheet} {name name' : Scalar} {raw raw' : Option String}

/-- The normal form is the same, if there is one. -/
theorem cellName_respelled (h : sheet.naming.SameName name name') :
    EqualUpTo Refusal.Alike (sheet.cellName name) (sheet.cellName name') := by
  unfold cellName
  rw [h.cell?]
  cases sheet.naming.cell? name' with
  | some n => exact .ok n
  | none => exact .error (.name name name')

/-- Hence the same contents are found. In the same way the other questions have one answer. -/
theorem contents_respelled (h : sheet.naming.SameName name name') :
    EqualUpTo Refusal.Alike (sheet.contents name) (sheet.contents name') :=
  (cellName_respelled h).bind fun _ => .ok _

theorem typed_respelled (h : sheet.naming.SameName name name') :
    EqualUpTo Refusal.Alike (sheet.typed name) (sheet.typed name') :=
  (contents_respelled h).bind fun _ => .ok _

theorem value_respelled (h : sheet.naming.SameName name name') :
    EqualUpTo Refusal.Alike (sheet.value name) (sheet.value name') :=
  (cellName_respelled h).bind fun _ => .ok _

theorem directDependents_respelled (h : sheet.naming.SameName name name') :
    EqualUpTo Refusal.Alike (sheet.directDependents name) (sheet.directDependents name') :=
  (cellName_respelled h).bind fun _ => .ok _

theorem recalculationOrder_respelled {names names' : List Scalar}
    (h : List.Forall₂ sheet.naming.SameName names names') :
    EqualUpTo Refusal.Alike (sheet.recalculationOrder names) (sheet.recalculationOrder names') :=
  (EqualUpTo.mapM h fun _ _ => cellName_respelled).bind fun _ => .refl .same _

/-- What is accepted does not depend on the spelling. -/
theorem accept_respelled (hname : sheet.naming.SameName name name')
    (hraw : sheet.naming.SameContent raw raw') :
    EqualUpTo Refusal.Alike (sheet.accept name raw) (sheet.accept name' raw') := by
  refine (cellName_respelled hname).bind fun n => ?_
  cases raw with
  | none =>
    cases hraw
    exact .refl .same _
  | some text =>
    obtain ⟨text', rfl⟩ : ∃ text', raw' = some text' := by
      cases hraw <;> exact ⟨_, rfl⟩
    have hparse := hraw.parse
    dsimp only
    generalize Content.parse sheet.naming text = x at hparse ⊢
    generalize Content.parse sheet.naming text' = y at hparse ⊢
    cases hparse with
    | ok content => exact .ok _
    | error hfault => exact .error (.formula hfault)

/-- Setting a content has the same result whatever the spelling, and leaves the same sheet. -/
theorem setContents_respelled (hname : sheet.naming.SameName name name')
    (hraw : sheet.naming.SameContent raw raw') :
    EqualUpTo Refusal.Alike (sheet.setContents name raw).1 (sheet.setContents name' raw').1
      ∧ (sheet.setContents name raw).2 = (sheet.setContents name' raw').2 := by
  have haccept := accept_respelled hname hraw
  unfold setContents
  generalize sheet.accept name raw = x at haccept ⊢
  generalize sheet.accept name' raw' = y at haccept ⊢
  cases haccept with
  | ok accepted => exact ⟨.refl .same _, rfl⟩
  | error halike => exact ⟨.error halike, rfl⟩

end Sheet

/-! ### Desks -/

namespace Desk

/-- A call that leaves the sheet in its place leaves its naming. -/
theorem naming_call (desk : Desk σ) {call : Call σ ε δ} (h : call.replacesSheet = false) :
    (desk.call call).2.sheet.naming = desk.sheet.naming := by
  cases call with
  | set name raw => exact (Sheet.settings_setContents desk.sheet name raw).1
  | save storage file =>
    rcases desk.save_cases storage file with ⟨fault, state, -, heq⟩ | ⟨state, -, heq⟩
    · simp only [Desk.call, heq]
    · simp only [Desk.call, heq]
  | fresh naming version => cases h
  | load storage file naming version => cases h
  | _ => rfl

/-- Calls that differ in spelling have the same answer, and leave the same desk. -/
theorem call_respelled {desk : Desk σ} {call call' : Call σ ε δ}
    (h : Call.Respelled desk.sheet.naming call call') :
    (desk.call call).1.Alike (desk.call call').1 ∧ (desk.call call).2 = (desk.call call').2 := by
  cases h with
  | set hname hraw =>
    obtain ⟨hresult, hsheet⟩ := Sheet.setContents_respelled hname hraw
    exact ⟨.order hresult, congrArg (fun sheet => { desk with sheet }) hsheet⟩
  | contents hname => exact ⟨.contents (Sheet.contents_respelled hname), rfl⟩
  | typed hname => exact ⟨.typed (Sheet.typed_respelled hname), rfl⟩
  | value hname => exact ⟨.value (Sheet.value_respelled hname), rfl⟩
  | dependents hname => exact ⟨.order (Sheet.directDependents_respelled hname), rfl⟩
  | recalculation hnames => exact ⟨.order (Sheet.recalculationOrder_respelled hnames), rfl⟩
  | same _ => exact ⟨.same _, rfl⟩

/-- A call that is spelled in two ways leaves the sheet in its place. -/
theorem replacesSheet_of_respelled {naming : Naming} {call call' : Call σ ε δ}
    (h : Call.Respelled naming call call') : call.replacesSheet = false := by
  cases h with
  | same h => exact h
  | _ => rfl

/-- Runs that differ in spelling have the same answers, and end at the same desk. -/
theorem run_respelled {naming : Naming} {calls calls' : List (Call σ ε δ)}
    (h : List.Forall₂ (Call.Respelled naming) calls calls') {desk : Desk σ}
    (hnaming : desk.sheet.naming = naming) :
    List.Forall₂ Answer.Alike (desk.run calls).1 (desk.run calls').1
      ∧ (desk.run calls).2 = (desk.run calls').2 := by
  induction h generalizing desk with
  | nil => exact ⟨.nil, rfl⟩
  | @cons call call' calls calls' hcall _ ih =>
    subst hnaming
    obtain ⟨hanswer, hdesk⟩ := call_respelled hcall
    obtain ⟨hanswers, hend⟩ := ih (desk.naming_call (replacesSheet_of_respelled hcall))
    rw [Desk.run, Desk.run]
    dsimp only
    rw [← hdesk]
    exact ⟨.cons hanswer hanswers, hend⟩

end Desk

namespace Naming

/-- An identifier is a formula by itself if and only if it names a cell, and reads that cell. -/
theorem parse_identifier_iff (naming : Naming) {s : String} (h : isIdentifier s = true)
    (f : Formula) : Formula.parse naming s = .ok f
      ↔ ∃ n, naming.cell? (.text s) = some n ∧ f = ⟨[.operand (.variable n)]⟩ := by
  rw [Formula.parse_identifier naming h, Naming.cell?, if_pos h]
  cases naming.resolve? s with
  | some n => simp [eq_comm]
  | none => simp

/-- Names matter only through their normal forms. Two runs of calls that differ in how names are
spelled, from whatever desk and with whatever storages, have the same answers but for what a refusal
quotes, and end at the same desk. An identifier is taken as a variable if and only if it names a
cell, and it stands for that cell, by itself and in whatever formula it is typed. -/
theorem spelling_invisible (naming : Naming) :
    (∀ {σ ε δ : Type} (desk : Desk σ) (calls calls' : List (Call σ ε δ)), desk.sheet.naming = naming →
      List.Forall₂ (Call.Respelled naming) calls calls' →
      List.Forall₂ Answer.Alike (desk.run calls).1 (desk.run calls').1
        ∧ (desk.run calls).2 = (desk.run calls').2)
    ∧ (∀ s, isIdentifier s = true → ∀ f, Formula.parse naming s = .ok f
      ↔ ∃ n, naming.cell? (.text s) = some n ∧ f = ⟨[.operand (.variable n)]⟩)
    ∧ ∀ (text : String) (f : Formula) (symbols : List (Expr.Symbol Formula.Term)),
      Formula.parse naming text = .ok f → scan text.toList = .ok symbols →
      ∀ name, .operand (.variable name) ∈ symbols →
        ∃ n, naming.cell? (.text (String.ofList name)) = some n ∧ f.Mentions n := by
  refine ⟨?_, ?_, ?_⟩
  · intro σ ε δ desk calls calls' hnaming h
    exact Desk.run_respelled h hnaming
  · intro s hs f
    exact naming.parse_identifier_iff hs f
  · intro text f symbols hparse hscan name hname
    exact Formula.exists_mentions_of_typed hparse hscan hname

/-- The normal form of a name is the name in capital letters, and letters followed by digits are
accepted. -/
def capitals : Naming := ⟨fun s => String.ofList (s.toList.map Char.toUpper), isCellName⟩

/-- A formula is set and asked for, with all names in small letters or in capital ones. -/
theorem spelling_invisible_letters :
    ∃ (desk : Desk Folder) (calls calls' : List (Call Folder SaveFault ReadFault)),
      desk.sheet.naming = capitals
      ∧ calls = [.set (.text "b1") (some ("=" ++ "a1*a1")), .typed (.text "b1")]
      ∧ calls' = [.set (.text "B1") (some ("=" ++ "A1*A1")), .typed (.text "B1")]
      ∧ List.Forall₂ Answer.Alike (desk.run calls).1 (desk.run calls').1
      ∧ (desk.run calls).2 = (desk.run calls').2
      ∧ Formula.parse capitals "a1" = .ok ⟨[.operand (.variable "A1")]⟩ := by
  obtain ⟨hruns, hvariable, -⟩ := spelling_invisible capitals
  have ha : capitals.Synonyms "a1" "A1" := ⟨by cbv, by cbv, by cbv⟩
  have hb : capitals.Synonyms "b1" "B1" := ⟨by cbv, by cbv, by cbv⟩
  have hrespelling : Respelling capitals ("a1".toList ++ (['*'] ++ ("a1".toList ++ [])))
      ("A1".toList ++ (['*'] ++ ("A1".toList ++ []))) := by
    refine .variable (Formula.longest_iff_token?.mpr (by cbv)) ha ?_
    have hop : Formula.Longest ['*'] (some (.op .mul)) ("a1".toList ++ []) :=
      Formula.longest_iff_token?.mpr (by cbv)
    refine .keep hop ?_
    exact .variable (Formula.longest_iff_token?.mpr (by cbv)) ha .nil
  have hcontent : capitals.SameContent (some ("=" ++ "a1*a1")) (some ("=" ++ "A1*A1")) := by
    have hscan : scan "a1*a1".toList = .ok [.operand (.variable "a1".toList), .op .mul,
      .operand (.variable "a1".toList)] := by cbv
    exact .respelled hscan (by cbv) hrespelling
  obtain ⟨hanswers, hdesk⟩ := hruns ⟨.empty capitals "1", Folder.empty fun _ => true⟩ _ _ rfl
    (.cons (.set (.respelled hb) hcontent) (.cons (.typed (.respelled hb)) .nil))
  exact ⟨_, _, _, rfl, rfl, rfl, hanswers, hdesk, (hvariable "a1" ha.left _).mpr ⟨"A1", by cbv, rfl⟩⟩

end Naming

end Worksheet
