import Mathlib
import Worksheet.Expr.Integer
import Worksheet.Expr.Phrase

/-!
# The machine on phrases

On the symbols of a phrase the machine finds the value of the phrase. The arithmetic and the operands
are computations in any lawful monad, and both sides are the same computation: they look up the same
operands and form the same quotients in the same order, and where one fails, so does the other.

For each open parenthesis at most one addition or subtraction waits, and on top of it at most one
multiplication or division. `Phrase.Runs` says what that amounts to for each kind of phrase:

* a factor leaves its value behind, and the multiplication or division that waits for it is done;
* a product leaves its value behind, if no multiplication or division waits;
* a sum leaves its value behind once its last addition or subtraction is done, if no operator waits.
-/

namespace Worksheet.Expr

variable {m : Type → Type} [Monad m] {N α : Type} {A : Arithmetic m N}

namespace Machine

variable {s : Machine N}

/-- The machine with one value more. -/
def push (s : Machine N) (value : N) : Machine N := { s with values := value :: s.values }

/-- The machine with one operator or open parenthesis more. -/
def hold (s : Machine N) (p : Pending) : Machine N := { s with pending := p :: s.pending }

/-- The operator on top, if there is one, is none of those that `due` tells. -/
def Rests (due : Op → Bool) (s : Machine N) : Prop :=
  ∀ o, s.pending.head? = some (.op o) → due o = false

/-- Before the first symbol nothing waits. -/
theorem rests_initial (due : Op → Bool) : (initial : Machine N).Rests due := by
  intro o h
  cases h

/-- Behind an open parenthesis no operator is due. -/
theorem rests_opening (due : Op → Bool) (s : Machine N) : (s.hold .opening).Rests due := by
  intro o h
  cases h

/-- An operator that is not due keeps those below it waiting. -/
theorem rests_op {due : Op → Bool} {o : Op} (h : due o = false) (s : Machine N) :
    (s.hold (.op o)).Rests due := by
  intro o' ho'
  cases ho'
  exact h

theorem Rests.push {due : Op → Bool} (h : s.Rests due) (value : N) : (s.push value).Rests due := h

/-- A machine at rest rests whatever is due. -/
theorem Rests.of_all (h : s.Rests fun _ => true) (due : Op → Bool) : s.Rests due := by
  intro o ho
  cases h o ho

/-! ### Single steps

What the machine does, symbol by symbol, as equations on `push` and `hold`. The steps of
multiplications and of additions differ only in which operators are due before them.
-/

/-- Where no operator is due, nothing is done. -/
theorem reduce_of_rests {due : Op → Bool} (h : s.Rests due) : reduce A due s = pure s := by
  unfold reduce
  split
  · next o pending hpending =>
    have hdue : due o = false := h o (by rw [hpending]; rfl)
    rw [hdue]
    rfl
  · rfl

/-- An operator that is due is done on the two values on top. -/
theorem reduce_op {due : Op → Bool} {o : Op} (h : due o = true) (s : Machine N) (left right : N) :
    reduce A due (((s.push left).hold (.op o)).push right)
      = (liftM (A.apply o left right) : ExceptT Malformed m N) >>= fun value =>
          pure (s.push value) := by
  unfold reduce
  dsimp only [push, hold]
  rw [if_pos h]

/-- An operator that is due and has fewer than two values is found to miss an operand. -/
theorem reduce_missing {due : Op → Bool} {o : Op} {pending : List Pending} {values : List N}
    (h : due o = true) (hvalues : values.length < 2) :
    reduce A due ⟨.op o :: pending, values⟩ = throw (.missingOperand o) := by
  unfold reduce
  dsimp only
  rw [if_pos h]
  split
  · next right left values =>
    simp only [List.length_cons] at hvalues
    omega
  · rfl

/-- All that a reduction can come upon: no operator that is due, too few values for one, or two values
for it. -/
inductive Reduction (due : Op → Bool) : Machine N → Prop
  | rests {s : Machine N} : s.Rests due → Reduction due s
  | missing {o : Op} {pending : List Pending} {values : List N} : due o = true →
    values.length < 2 → Reduction due ⟨.op o :: pending, values⟩
  | op {o : Op} : due o = true → ∀ (s : Machine N) (left right : N),
    Reduction due (((s.push left).hold (.op o)).push right)

/-- These are all the cases of a reduction. -/
theorem reduction (due : Op → Bool) (s : Machine N) : Reduction due s := by
  match s with
  | ⟨[], values⟩ => exact .rests fun o ho => by cases ho
  | ⟨.opening :: pending, values⟩ => exact .rests fun o ho => by cases ho
  | ⟨.op o :: pending, values⟩ =>
    by_cases hdue : due o = true
    · match values with
      | [] => exact .missing hdue Nat.zero_lt_two
      | [right] => exact .missing hdue Nat.one_lt_two
      | right :: left :: values => exact .op hdue ⟨pending, values⟩ left right
    · refine .rests fun o' ho' => ?_
      cases ho'
      exact Bool.not_eq_true _ ▸ hdue

/-- Takes the open parenthesis from the top and does what waits for the group. -/
def close (A : Arithmetic m N) (s : Machine N) : ExceptT Malformed m (Machine N) :=
  match s.pending with
  | .opening :: pending => reduce A (!·.isAdditive) { s with pending }
  | _ => throw .unexpectedClosing

variable {operand : α → m N}

theorem step_opening : step A operand s .opening = pure (s.hold .opening) := rfl

theorem step_closing :
    step A operand s .closing = reduce A Op.isAdditive s >>= fun s => s.close A := rfl

theorem step_operand (a : α) : step A operand s (.operand a)
    = (liftM (operand a) : ExceptT Malformed m N) >>= fun value =>
        reduce A (!·.isAdditive) (s.push value) := rfl

theorem step_op (o : Op) : step A operand s (.op o)
    = if o.isAdditive then reduce A Op.isAdditive s >>= fun s => pure (s.hold (.op o))
      else pure (s.hold (.op o)) := rfl

/-- A multiplication or a division is held without anything being done before. -/
theorem step_multiplier (divides : Bool) :
    step A operand s (.op (Phrase.multiplier divides))
      = pure (s.hold (.op (Phrase.multiplier divides))) := by
  rw [step_op, Phrase.isAdditive_multiplier, if_neg Bool.false_ne_true]

/-- An addition or a subtraction has the one before it done first. -/
theorem step_summand (subtracts : Bool) :
    step A operand s (.op (Phrase.summand subtracts))
      = reduce A Op.isAdditive s >>= fun s => pure (s.hold (.op (Phrase.summand subtracts))) := by
  rw [step_op, Phrase.isAdditive_summand, if_pos rfl]

/-- The value that is left when no operator waits any more. -/
def left (s : Machine N) : ExceptT Malformed m N :=
  match s.pending with
  | .op o :: pending =>
    throw (if .opening ∈ pending then .missingClosing else .missingOperand o)
  | .opening :: _ => throw .missingClosing
  | [] =>
    match s.values with
    | [] => throw .noValue
    | [value] => pure value
    | _ => throw .severalValues

theorem finish_eq :
    s.finish A = reduce A Op.isAdditive s >>= fun s => (s.left : ExceptT Malformed m N) := rfl

/-- Closing a parenthesis has the multiplication before it done, which now has its right operand. -/
theorem close_opening (s : Machine N) (value : N) :
    ((s.hold .opening).push value).close A = reduce A (!·.isAdditive) (s.push value) := rfl

end Machine

/-! ### Phrases

The machine on the row of a phrase does what the phrase says: it computes the value as `eval` does,
in the same order, and pushes it. A product must find no multiplication before it, and a sum no
operator at all; so what a phrase asks of the machine depends on its rank, and the induction is on
the phrase.
-/

namespace Phrase

open Machine (reduce Rests rests_op rests_opening rests_initial reduce_of_rests reduce_op
  step_opening step_closing step_operand step_multiplier step_summand close_opening run_append
  finish_eq run_cons run_nil)

/-- What the machine makes of a phrase. -/
def Runs (A : Arithmetic m N) (lookup : α → m N) : {rank : Rank} → Phrase α rank → Prop
  | .factor, f => ∀ s : Machine N, s.run A lookup f.symbols
      = (liftM (f.eval A lookup) : ExceptT Malformed m N) >>= fun value =>
          reduce A (!·.isAdditive) (s.push value)
  | .product, t => ∀ s : Machine N, s.Rests (!·.isAdditive) → s.run A lookup t.symbols
      = (liftM (t.eval A lookup) : ExceptT Malformed m N) >>= fun value => pure (s.push value)
  | .sum, e => ∀ s : Machine N, s.Rests (fun _ => true) →
      (s.run A lookup e.symbols >>= fun s => s.reduce A Op.isAdditive)
        = (liftM (e.eval A lookup) : ExceptT Malformed m N) >>= fun value => pure (s.push value)

variable [LawfulMonad m] {lookup : α → m N}

/-- A group starts on a machine at rest, because its parenthesis is held first. -/
theorem runs_group {e : Phrase α .sum} (h : e.Runs A lookup) : (group e).Runs A lookup := by
  intro s
  calc s.run A lookup (group e).symbols
      = ((s.hold .opening).run A lookup e.symbols >>= fun s => s.reduce A Op.isAdditive)
          >>= fun s => s.close A := by
        simp only [symbols, List.cons_append, run_cons, run_append, run_nil, step_opening,
          step_closing, pure_bind, bind_pure, bind_assoc]
    _ = (liftM (e.eval A lookup) : ExceptT Malformed m N) >>= fun value =>
          reduce A (!·.isAdditive) (s.push value) := by
        rw [h _ (rests_opening _ s)]
        simp only [bind_assoc, pure_bind, close_opening]

omit [LawfulMonad m] in
/-- A factor by itself is a product, since no multiplication waits for it. -/
theorem runs_factor {f : Phrase α .factor} (h : f.Runs A lookup) : (factor f).Runs A lookup := by
  intro s hs
  calc s.run A lookup (factor f).symbols
      = (liftM (f.eval A lookup) : ExceptT Malformed m N) >>= fun value =>
          reduce A (!·.isAdditive) (s.push value) := h s
    _ = (liftM (f.eval A lookup) : ExceptT Malformed m N) >>= fun value => pure (s.push value) :=
        bind_congr fun value => reduce_of_rests (hs.push value)

/-- The right factor of a product has the operator between the two done. -/
theorem runs_multiply {t : Phrase α .product} {f : Phrase α .factor} (divides : Bool)
    (ht : t.Runs A lookup) (hf : f.Runs A lookup) : (multiply t divides f).Runs A lookup := by
  intro s hs
  have hdue : (!(multiplier divides).isAdditive) = true := by
    rw [isAdditive_multiplier]
    rfl
  calc s.run A lookup (multiply t divides f).symbols
      = (liftM (t.eval A lookup) : ExceptT Malformed m N) >>= fun left =>
          ((s.push left).hold (.op (multiplier divides))).run A lookup f.symbols := by
        simp only [symbols, run_append, run_cons, ht s hs, step_multiplier, bind_assoc, pure_bind]
    _ = (liftM (t.eval A lookup) : ExceptT Malformed m N) >>= fun left =>
          (liftM (f.eval A lookup) : ExceptT Malformed m N) >>= fun right =>
            (liftM (A.apply (multiplier divides) left right) : ExceptT Malformed m N)
              >>= fun value => pure (s.push value) := by
        apply bind_congr
        intro left
        rw [hf]
        apply bind_congr
        intro right
        exact reduce_op hdue s left right
    _ = (liftM ((multiply t divides f).eval A lookup) : ExceptT Malformed m N)
          >>= fun value => pure (s.push value) := by
        simp only [eval, monadLift_bind, bind_assoc]

/-- A product by itself is a sum, since no operator waits for it. -/
theorem runs_product {t : Phrase α .product} (h : t.Runs A lookup) : (product t).Runs A lookup := by
  intro s hs
  calc (s.run A lookup (product t).symbols >>= fun s => s.reduce A Op.isAdditive)
      = (liftM (t.eval A lookup) : ExceptT Malformed m N) >>= fun value =>
          reduce A Op.isAdditive (s.push value) := by
        simp only [symbols, h s (hs.of_all _), bind_assoc, pure_bind]
    _ = (liftM (t.eval A lookup) : ExceptT Malformed m N) >>= fun value => pure (s.push value) :=
        bind_congr fun value => reduce_of_rests ((hs.of_all _).push value)

/-- The next summand has the sum before it done first. -/
theorem runs_sum {e : Phrase α .sum} {t : Phrase α .product} (subtracts : Bool)
    (he : e.Runs A lookup) (ht : t.Runs A lookup) : (sum e subtracts t).Runs A lookup := by
  intro s hs
  have hrests : ∀ left : N, ((s.push left).hold (.op (summand subtracts))).Rests
      (!·.isAdditive) := by
    intro left
    apply rests_op
    rw [isAdditive_summand]
    rfl
  calc (s.run A lookup (sum e subtracts t).symbols >>= fun s => s.reduce A Op.isAdditive)
      = ((s.run A lookup e.symbols >>= fun s => s.reduce A Op.isAdditive) >>= fun s =>
          (s.hold (.op (summand subtracts))).run A lookup t.symbols)
            >>= fun s => s.reduce A Op.isAdditive := by
        simp only [symbols, run_append, run_cons, step_summand, bind_assoc, pure_bind]
    _ = (liftM (e.eval A lookup) : ExceptT Malformed m N) >>= fun left =>
          ((s.push left).hold (.op (summand subtracts))).run A lookup t.symbols
            >>= fun s => s.reduce A Op.isAdditive := by
        rw [he s hs]
        simp only [bind_assoc, pure_bind]
    _ = (liftM (e.eval A lookup) : ExceptT Malformed m N) >>= fun left =>
          (liftM (t.eval A lookup) : ExceptT Malformed m N) >>= fun right =>
            (liftM (A.apply (summand subtracts) left right) : ExceptT Malformed m N)
              >>= fun value => pure (s.push value) := by
        apply bind_congr
        intro left
        rw [ht _ (hrests left), bind_assoc]
        apply bind_congr
        intro right
        rw [pure_bind]
        exact reduce_op (isAdditive_summand subtracts) s left right
    _ = (liftM ((sum e subtracts t).eval A lookup) : ExceptT Malformed m N)
          >>= fun value => pure (s.push value) := by
        simp only [eval, monadLift_bind, bind_assoc]

/-- The machine makes of every phrase what its kind asks for. -/
theorem runs {rank : Rank} (e : Phrase α rank) : e.Runs A lookup := by
  induction e with
  | operand a =>
    intro s
    rw [symbols, run_cons, step_operand, bind_assoc]
    exact bind_congr fun value => bind_pure _
  | group e ih => exact runs_group ih
  | factor f ih => exact runs_factor ih
  | multiply t divides f iht ihf => exact runs_multiply divides iht ihf
  | product t ih => exact runs_product ih
  | sum e subtracts t ihe iht => exact runs_sum subtracts ihe iht

/-- The value of the symbols of an expression is that of the expression. -/
theorem value_symbols (e : Phrase α .sum) :
    value A lookup e.symbols = (liftM (e.eval A lookup) : ExceptT Malformed m N) := by
  have hrun : (Machine.initial.run A lookup e.symbols >>= fun s => s.reduce A Op.isAdditive)
      = (liftM (e.eval A lookup) : ExceptT Malformed m N) >>= fun value =>
          pure (Machine.initial.push value) :=
    e.runs .initial (rests_initial _)
  calc value A lookup e.symbols
      = (Machine.initial.run A lookup e.symbols >>= fun s => s.reduce A Op.isAdditive)
          >>= fun s => s.left := by
        simp only [value, finish_eq, bind_assoc]
    _ = (liftM (e.eval A lookup) : ExceptT Malformed m N) >>= fun value => pure value := by
        rw [hrun, bind_assoc]
        exact bind_congr fun value => pure_bind _ _
    _ = liftM (e.eval A lookup) := bind_pure _

/-- The machine finds no fault with the symbols of an expression. -/
theorem run_value_symbols (e : Phrase α .sum) :
    (value A lookup e.symbols).run = Except.ok <$> e.eval A lookup := by
  rw [value_symbols]
  rfl

/-- A row of fragments that is an expression has the value of the expression. This holds in every
lawful monad: there is a value or a first failure on both sides, after the same operands and the same
quotients, and the machine finds no fault with the row. -/
theorem value_fragments (A : Arithmetic m N) (operand : List Char → m N)
    {fragments : List (List Char)} (e : Phrase (List Char) .sum)
    (h : e.symbols = fragments.map Symbol.ofFragment) :
    (value A operand (fragments.map Symbol.ofFragment)).run = Except.ok <$> e.eval A operand := by
  rw [← h, value_symbols]
  rfl

/-- Finds 1 for every name, and writes the names down. -/
def logged (name : String) : StateM (List String) Int := do
  modify (· ++ [name])
  return 1

/-- In `6/(a1-a1)*b1` the name `a1` is looked up twice, and the division by zero comes before `b1`. -/
theorem value_fragments_zero_division :
    (value Integer.arithmetic (Integer.operand logged)
        (Integer.symbols "6/(a1-a1)*b1".toList)).run.run.run []
      = (.error .divisionByZero, ["a1", "a1"]) := by
  let a1 : Phrase (List Char) .product := .factor (.operand ['a', '1'])
  let quotient : Phrase (List Char) .product :=
    .multiply (.factor (.operand ['6'])) true (.group (.sum (.product a1) true a1))
  have hsymbols : (Phrase.product (.multiply quotient false (.operand ['b', '1']))).symbols
      = (fragments "6/(a1-a1)*b1".toList).map Symbol.ofFragment := by cbv
  rw [Integer.symbols, value_fragments _ _ _ hsymbols]
  rfl

end Phrase
end Worksheet.Expr
