import Worksheet.Expr.Symbol

/-!
# The reduction machine

An expression is evaluated in one pass over its symbols with two stacks: operators and open
parentheses that still wait, and values. A multiplication or division is done as soon as its right
operand is there; an addition or subtraction is done when the next operator of its kind, a closing
parenthesis or the end is reached.

The machine works over any numbers whose operands and quotients are found by a computation in a
monad `m`, so that looking an operand up may fail, or be written to a log. Rows of symbols that are
no expression end in `Malformed`.
-/

namespace Worksheet.Expr

/-- Why a row of symbols has no value. -/
inductive Malformed where
  | missingOperand (o : Op)
  | unexpectedClosing
  | missingClosing
  | noValue
  | severalValues
deriving Repr, DecidableEq

/-- The wording of the fault. -/
def Malformed.message : Malformed → String
  | missingOperand o => "operator '" ++ o.char.toString ++ "' is missing an operand"
  | unexpectedClosing => "unbalanced parentheses: unexpected ')'"
  | missingClosing => "unbalanced parentheses: missing ')'"
  | noValue => "expression has no value"
  | severalValues => "more than one value remaining"

/-- The operations on numbers of type `N`. Division is a computation, since it may fail. -/
structure Arithmetic (m : Type → Type) (N : Type) where
  add : N → N → N
  sub : N → N → N
  mul : N → N → N
  div : N → N → m N

/-- The number that an operator makes of two. -/
def Arithmetic.apply {m : Type → Type} [Monad m] {N : Type} (A : Arithmetic m N) :
    Op → N → N → m N
  | .add, a, b => pure (A.add a b)
  | .sub, a, b => pure (A.sub a b)
  | .mul, a, b => pure (A.mul a b)
  | .div, a, b => A.div a b

/-- What waits on the operator stack. -/
inductive Pending where
  | opening
  | op (o : Op)
deriving Repr, DecidableEq

/-- The two stacks, each with its top first. -/
structure Machine (N : Type) where
  pending : List Pending
  values : List N

namespace Machine

variable {m : Type → Type} [Monad m] {N α : Type}

/-- The machine before the first symbol. -/
def initial : Machine N := ⟨[], []⟩

/-- Does the operator on top, if it is one of those that `due` tells. -/
def reduce (A : Arithmetic m N) (due : Op → Bool) (s : Machine N) :
    ExceptT Malformed m (Machine N) :=
  match s.pending with
  | .op o :: pending =>
    if due o then
      match s.values with
      | right :: left :: values => do
        let value ← A.apply o left right
        pure ⟨pending, value :: values⟩
      | _ => throw (.missingOperand o)
    else pure s
  | _ => pure s

/-- Takes one symbol. -/
def step (A : Arithmetic m N) (operand : α → m N) (s : Machine N) :
    Symbol α → ExceptT Malformed m (Machine N)
  | .opening => pure { s with pending := .opening :: s.pending }
  | .closing => do
    let s ← s.reduce A Op.isAdditive
    match s.pending with
    | .opening :: pending => reduce A (!·.isAdditive) { s with pending }
    | _ => throw .unexpectedClosing
  | .op o =>
    if o.isAdditive then do
      let s ← s.reduce A Op.isAdditive
      pure { s with pending := .op o :: s.pending }
    else pure { s with pending := .op o :: s.pending }
  | .operand a => do
    let value ← operand a
    reduce A (!·.isAdditive) { s with values := value :: s.values }

/-- Takes a row of symbols. -/
def run (A : Arithmetic m N) (operand : α → m N) (s : Machine N) (symbols : List (Symbol α)) :
    ExceptT Malformed m (Machine N) :=
  symbols.foldlM (step A operand) s

/-- The value left after the last symbol. -/
def finish (A : Arithmetic m N) (s : Machine N) : ExceptT Malformed m N := do
  let s ← s.reduce A Op.isAdditive
  match s.pending with
  | .op o :: pending =>
    throw (if .opening ∈ pending then .missingClosing else .missingOperand o)
  | .opening :: _ => throw .missingClosing
  | [] =>
    match s.values with
    | [] => throw .noValue
    | [value] => pure value
    | _ => throw .severalValues

@[simp] theorem run_nil (A : Arithmetic m N) (operand : α → m N) (s : Machine N) :
    run A operand s [] = pure s := rfl

@[simp] theorem run_cons (A : Arithmetic m N) (operand : α → m N) (s : Machine N)
    (x : Symbol α) (xs : List (Symbol α)) :
    run A operand s (x :: xs) = step A operand s x >>= fun s => run A operand s xs := rfl

/-- A row may be taken in parts. -/
theorem run_append [LawfulMonad m] (A : Arithmetic m N) (operand : α → m N) (s : Machine N)
    (xs ys : List (Symbol α)) :
    run A operand s (xs ++ ys) = run A operand s xs >>= fun s => run A operand s ys := by
  simp [run, List.foldlM_append]

end Machine

/-- The value of a row of symbols. -/
def value {m : Type → Type} [Monad m] {N α : Type} (A : Arithmetic m N) (operand : α → m N)
    (symbols : List (Symbol α)) : ExceptT Malformed m N := do
  let s ← Machine.initial.run A operand symbols
  s.finish A

end Worksheet.Expr
