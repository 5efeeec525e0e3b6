import Worksheet.Formula.Basic
import Worksheet.Expr.Machine

/-!
# Values of formulas

A formula is evaluated over doubles by the reduction machine. Its variables are looked up, in the
order in which they stand, by a computation that gives a number, says that there is none, or reports
a division by zero of its own. The first failure ends the evaluation and is its outcome.
-/

namespace Worksheet.Formula

open Worksheet.Expr (Arithmetic Malformed)

/-- What is found when a variable is looked up. -/
inductive Reply where
  | number (x : Float)
  | undefined
  | zeroDivision
deriving DecidableEq

/-- The kinds of failure of a lookup that a formula tells apart. A failure may be of several kinds, or
of none. -/
inductive Kind where
  | lookup | value | type | zeroDivision
deriving Repr, DecidableEq

/-- What a lookup has found, where `is` tells the kinds of a failure. A failure of none of them is no
answer. -/
def Reply.ofResult {ε : Type} (is : ε → Kind → Bool) : Except ε Float → Except ε Reply
  | .ok x => .ok (.number x)
  | .error e =>
    if is e .lookup || is e .value || is e .type then .ok .undefined
    else if is e .zeroDivision then .ok .zeroDivision
    else .error e

/-- Why a formula has no number as its value. -/
inductive Reason where
  | divisionByZero
  | undefinedVariable (name : String)
  | malformed (m : Malformed)
deriving Repr, DecidableEq

/-- The wording of the reason. -/
def Reason.message : Reason → String
  | divisionByZero => "division by zero"
  | undefinedVariable name => "undefined variable " ++ name
  | malformed m => m.message

variable {m : Type → Type} [Monad m]

/-- The quotient of two doubles. A zero of either sign divides nothing. -/
def divide (left right : Float) : Except Reason Float :=
  if Number.isZero right then throw .divisionByZero else pure (left / right)

/-- The arithmetic of doubles. -/
def arithmetic : Arithmetic (ExceptT Reason m) Float where
  add := (· + ·)
  sub := (· - ·)
  mul := (· * ·)
  div left right := liftM (divide left right)

/-- The value of an operand. -/
def operand (lookup : String → m Reply) : Atom → ExceptT Reason m Float
  | .number x => pure x
  | .variable name => do
    match ← lookup name with
    | .number x => pure x
    | .undefined => throw (.undefinedVariable name)
    | .zeroDivision => throw .divisionByZero

/-- The value of a row of symbols. -/
def value {α : Type} (operand : α → ExceptT Reason m Float) (symbols : List (Expr.Symbol α)) :
    ExceptT Reason m Float := do
  match ← (Expr.value arithmetic operand symbols).run with
  | .ok x => pure x
  | .error e => throw (.malformed e)

/-- The value of a formula, or why it has none. -/
def evaluate (f : Formula) (lookup : String → m Reply) : m (Except Reason Float) :=
  (value (operand lookup) f.symbols).run

/-- What is found by lookups that may fail. -/
def replies {ε : Type} (is : ε → Kind → Bool) (lookup : String → ExceptT ε m Float) (name : String) :
    ExceptT ε m Reply :=
  ExceptT.mk (Reply.ofResult is <$> (lookup name).run)

/-- The value of a formula whose lookups may fail. A failure of no kind that is told apart ends the
evaluation and is passed on. -/
def evaluateWith {ε : Type} (is : ε → Kind → Bool) (f : Formula)
    (lookup : String → ExceptT ε m Float) : ExceptT ε m (Except Reason Float) :=
  f.evaluate (replies is lookup)

end Worksheet.Formula
