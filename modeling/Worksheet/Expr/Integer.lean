import Worksheet.Expr.Machine
import Worksheet.Name

/-!
# Integer expressions

Expressions over whole numbers without bound. An operand is a row of plain digits, of which there
may be at most 4300, or a variable: letters followed by digits. Division drops the fraction.
-/

namespace Worksheet.Expr.Integer

/-- Why an integer expression has no value. -/
inductive Failure where
  | malformed (m : Malformed)
  | invalidToken (text : List Char)
  | overlong
  | divisionByZero
deriving Repr, DecidableEq

/-- The wording of the failure. -/
def Failure.message : Failure → String
  | malformed m => m.message
  | invalidToken text => "invalid token: " ++ Text.quoted (String.ofList text)
  | overlong => "a whole number has more than 4300 digits"
  | divisionByZero => "division by zero"

/-- The most digits that an operand may have, leading zeros included. -/
def maxDigits : Nat := 4300

/-- The number that a row of plain digits stands for. -/
def ofDigits (ds : List Char) : Nat := ds.foldl (fun n c => 10 * n + (c.toNat - 0x30)) 0

/-- The quotient of two whole numbers, without its fraction. -/
def divide (left right : Int) : Except Failure Int :=
  if right = 0 then throw .divisionByZero else pure (left.tdiv right)

variable {m : Type → Type} [Monad m]

/-- The arithmetic of whole numbers. -/
def arithmetic : Arithmetic (ExceptT Failure m) Int where
  add := (· + ·)
  sub := (· - ·)
  mul := (· * ·)
  div left right := liftM (divide left right)

/-- The value of an operand. -/
def operand (resolve : String → m Int) (text : List Char) : ExceptT Failure m Int :=
  if text ≠ [] ∧ text.all Char.isDigit then
    if maxDigits < text.length then throw .overlong else pure (ofDigits text)
  else if isCellName (String.ofList text) then liftM (resolve (String.ofList text))
  else throw (.invalidToken text)

/-- The value of a row of symbols. -/
def value {α : Type} (operand : α → ExceptT Failure m Int) (symbols : List (Symbol α)) :
    ExceptT Failure m Int := do
  match ← (Expr.value arithmetic operand symbols).run with
  | .ok n => pure n
  | .error e => throw (.malformed e)

/-- The symbols of a text. -/
def symbols (text : List Char) : List (Symbol (List Char)) :=
  (fragments text).map Symbol.ofFragment

/-- The value of an expression, where `resolve` knows the variables. -/
def evaluate (resolve : String → m Int) (expression : String) : ExceptT Failure m Int :=
  value (operand resolve) (symbols expression.toList)

end Worksheet.Expr.Integer
