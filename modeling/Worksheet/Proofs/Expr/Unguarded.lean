import Worksheet.Proofs.Expr.Machine
import Worksheet.Proofs.Result

/-!
# No stack is taken from when it is empty

The machine looks at its stacks before it takes anything from them. Here they are taken from one value
and one operator at a time, and an empty stack fails. `Unguarded.value_eq` says that this never happens:
whatever the row of symbols, the machine that takes in this way does the same.
-/

namespace Worksheet.Expr

/-- What ends a run that takes from its stacks: nothing was there, or a fault of the row was found. -/
inductive Stop where
  | underflow
  | malformed (m : Malformed)
deriving Repr, DecidableEq

variable {m : Type → Type} [Monad m] {N α : Type}

/-! ### Taking from a stack

The machine once more, as it is run on real stacks: what is needed is taken from the top before it
is looked at, and taking from an empty stack is an error of its own.
-/

namespace Machine

/-- Takes the operator or open parenthesis on top. -/
def popPending (s : Machine N) : ExceptT Stop m (Pending × Machine N) :=
  match s.pending with
  | [] => throw .underflow
  | p :: pending => pure (p, { s with pending })

/-- Takes the value on top. -/
def popValue (s : Machine N) : ExceptT Stop m (N × Machine N) :=
  match s.values with
  | [] => throw .underflow
  | value :: values => pure (value, { s with values })

end Machine

namespace Unguarded

/-- Does the operator on top, if it is due. Its operands are counted before they are taken. -/
def reduce (A : Arithmetic m N) (due : Op → Bool) (s : Machine N) : ExceptT Stop m (Machine N) :=
  match s.pending.head? with
  | some (.op o) =>
    if due o then do
      let (_, s) ← s.popPending
      if s.values.length < 2 then throw (.malformed (.missingOperand o))
      else
        let (right, s) ← s.popValue
        let (left, s) ← s.popValue
        let value ← A.apply o left right
        pure (s.push value)
    else pure s
  | _ => pure s

/-- Takes the open parenthesis and does what waits for the group. -/
def close (A : Arithmetic m N) (s : Machine N) : ExceptT Stop m (Machine N) :=
  if s.pending = [] then throw (.malformed .unexpectedClosing)
  else do
    let (p, s) ← s.popPending
    if p = .opening then reduce A (!·.isAdditive) s else throw (.malformed .unexpectedClosing)

/-- Takes one symbol. -/
def step (A : Arithmetic m N) (operand : α → m N) (s : Machine N) :
    Symbol α → ExceptT Stop m (Machine N)
  | .opening => pure (s.hold .opening)
  | .closing => do
    let s ← reduce A Op.isAdditive s
    close A s
  | .op o =>
    if o.isAdditive then do
      let s ← reduce A Op.isAdditive s
      pure (s.hold (.op o))
    else pure (s.hold (.op o))
  | .operand a => do
    let value ← operand a
    reduce A (!·.isAdditive) (s.push value)

/-- The value of a row of symbols. -/
def value (A : Arithmetic m N) (operand : α → m N) (symbols : List (Symbol α)) :
    ExceptT Stop m N := do
  let s ← symbols.foldlM (step A operand) Machine.initial
  let s ← reduce A Op.isAdditive s
  s.left.adapt .malformed

/-! ### The two machines

The functions of the two machines agree one by one. A reduction is the only one that needs an
argument: it counts its operands before it takes them.
-/

variable [LawfulMonad m] {A : Arithmetic m N} {operand : α → m N}

/-- A reduction finds as many values as it takes. -/
theorem reduce_eq (due : Op → Bool) (s : Machine N) :
    reduce A due s = (Machine.reduce A due s).adapt .malformed := by
  cases Machine.reduction due s with
  | rests h =>
    rw [Machine.reduce_of_rests h, adapt_pure, reduce]
    split
    · next o ho => rw [h o ho, if_neg Bool.false_ne_true]
    · rfl
  | missing hdue hvalues =>
    rw [Machine.reduce_missing hdue hvalues, adapt_throw, reduce]
    simp only [List.head?_cons, hdue, Machine.popPending, pure_bind, hvalues, if_true]
  | op hdue s left right =>
    rw [Machine.reduce_op hdue, adapt_bind, adapt_lift, reduce]
    dsimp only [Machine.push, Machine.hold, List.head?_cons]
    rw [if_pos hdue]
    simp [Machine.popPending, Machine.popValue, adapt_pure]

/-- A parenthesis is closed only where the stack has something on it. -/
theorem close_eq (s : Machine N) : close A s = (s.close A).adapt .malformed := by
  match s with
  | ⟨[], values⟩ => simp [close, Machine.close, adapt_throw]
  | ⟨.opening :: pending, values⟩ =>
    simp [close, Machine.close, Machine.popPending, reduce_eq]
  | ⟨.op o :: pending, values⟩ =>
    simp [close, Machine.close, Machine.popPending, adapt_throw]

/-- The two machines take a symbol in the same way. -/
theorem step_eq (s : Machine N) (x : Symbol α) :
    step A operand s x = (s.step A operand x).adapt .malformed := by
  cases x with
  | opening => rw [step, Machine.step_opening, adapt_pure]
  | closing =>
    rw [step, Machine.step_closing, adapt_bind, reduce_eq]
    exact bind_congr fun s => close_eq s
  | op o =>
    rw [step, Machine.step_op]
    split
    · rw [adapt_bind, reduce_eq]
      exact bind_congr fun s => (adapt_pure _ _).symm
    · exact (adapt_pure _ _).symm
  | operand a =>
    rw [step, Machine.step_operand, adapt_bind, adapt_lift]
    exact bind_congr fun value => reduce_eq _ _

theorem run_eq (s : Machine N) (xs : List (Symbol α)) :
    xs.foldlM (step A operand) s = (s.run A operand xs).adapt .malformed := by
  induction xs generalizing s with
  | nil => rw [List.foldlM_nil, Machine.run_nil, adapt_pure]
  | cons x xs ih =>
    rw [List.foldlM_cons, Machine.run_cons, adapt_bind, step_eq]
    exact bind_congr fun s => ih s

/-- A machine that takes from its stacks as it goes finds the same value, the same fault, or the same
failure of a computation, and never an empty stack. -/
theorem value_eq (A : Arithmetic m N) (operand : α → m N) (xs : List (Symbol α)) :
    value A operand xs = (Expr.value A operand xs).adapt .malformed := by
  rw [value, Expr.value, run_eq, adapt_bind]
  apply bind_congr
  intro s
  rw [reduce_eq, Machine.finish_eq, adapt_bind]

end Unguarded

end Worksheet.Expr
