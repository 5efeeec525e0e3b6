import Mathlib
import Worksheet.Cell

/-!
# What evaluation depends on

The value of a formula depends only on what is found for the variables that it mentions, and these
are the ones that `Formula.reads` lists.
-/

namespace Worksheet

open Worksheet.Expr (Arithmetic Symbol)

namespace Expr

variable {m : Type → Type} [Monad m] {N α : Type}

/-- The machine looks up only the operands of its symbols. -/
theorem Machine.run_congr (A : Arithmetic m N) {operand operand' : α → m N}
    {symbols : List (Symbol α)} (h : ∀ a, Symbol.operand a ∈ symbols → operand a = operand' a)
    (s : Machine N) : s.run A operand symbols = s.run A operand' symbols := by
  induction symbols generalizing s with
  | nil => rfl
  | cons x symbols ih =>
    have hstep : s.step A operand x = s.step A operand' x := by
      cases x with
      | operand a => simp only [Machine.step, h a List.mem_cons_self]
      | opening => rfl
      | closing => rfl
      | op o => rfl
    rw [Machine.run_cons, Machine.run_cons, hstep]
    exact bind_congr fun s => ih (fun a ha => h a (List.mem_cons_of_mem _ ha)) s

/-- The value depends on the operands that occur, and on no others. -/
theorem value_congr (A : Arithmetic m N) {operand operand' : α → m N} {symbols : List (Symbol α)}
    (h : ∀ a, Symbol.operand a ∈ symbols → operand a = operand' a) :
    value A operand symbols = value A operand' symbols := by
  unfold value
  rw [Machine.run_congr A h]

end Expr

namespace Formula

variable {m : Type → Type} [Monad m]

/-- Whether a formula mentions a variable. -/
def Mentions (f : Formula) (name : String) : Prop := Symbol.operand (.variable name) ∈ f.symbols

/-- The reads of a formula are the variables that it mentions. -/
theorem mem_reads {f : Formula} {name : String} : name ∈ f.reads ↔ f.Mentions name := by
  rw [reads, List.mem_eraseDups, List.mem_filterMap, Mentions]
  constructor
  · rintro ⟨symbol, hsymbol, hname⟩
    cases symbol with
    | operand a =>
      cases a with
      | «variable» other =>
        obtain rfl : other = name := by simpa [Symbol.operand?, Atom.variable?] using hname
        exact hsymbol
      | number x => simp [Symbol.operand?, Atom.variable?] at hname
    | opening => simp [Symbol.operand?] at hname
    | closing => simp [Symbol.operand?] at hname
    | op o => simp [Symbol.operand?] at hname
  · intro hmem
    exact ⟨_, hmem, rfl⟩

/-- The value of a formula depends only on what is found for the variables that it mentions. -/
theorem evaluate_congr {f : Formula} {lookup lookup' : String → m Reply}
    (h : ∀ name, f.Mentions name → lookup name = lookup' name) :
    f.evaluate lookup = f.evaluate lookup' := by
  unfold evaluate value
  rw [Expr.value_congr]
  intro a ha
  cases a with
  | number x => rfl
  | «variable» name => simp only [operand, h name ha]

end Formula

namespace Content

variable {m : Type → Type} [Monad m]

/-- A content depends on the cells that it reads. -/
theorem compute_congr {content : Content} {lookup lookup' : String → m Formula.Reply}
    (h : ∀ name ∈ content.reads, lookup name = lookup' name) :
    content.compute lookup = content.compute lookup' := by
  cases content with
  | number x => rfl
  | text s => rfl
  | formula f =>
    have hevaluate : f.evaluate lookup = f.evaluate lookup' :=
      Formula.evaluate_congr fun name hname => h name (Formula.mem_reads.mpr hname)
    simp only [compute, hevaluate]

/-- A formula with a result has it as its value. -/
theorem compute_formula_ok {f : Formula} {lookup : String → Formula.Reply} {x : Float}
    (h : Id.run (f.evaluate lookup) = .ok x) :
    Id.run ((Content.formula f).compute lookup) = .number x := by
  rw [Id.run] at h
  simp only [compute, h]
  rfl

/-- A formula without result has the reason as its value. -/
theorem compute_formula_error {f : Formula} {lookup : String → Formula.Reply}
    {reason : Formula.Reason} (h : Id.run (f.evaluate lookup) = .error reason) :
    Id.run ((Content.formula f).compute lookup) = .error reason := by
  rw [Id.run] at h
  simp only [compute, h]
  rfl

end Content

end Worksheet
