import Worksheet.Expr.Machine

/-!
# Phrases of arithmetic

The grammar of expressions, as trees: a sum is a product, or a sum and a product with `+` or `-`
between them; a product is a factor, or a product and a factor with `*` or `/` between them; a
factor is an operand or a sum in parentheses. `Phrase.symbols` writes a tree as a row of symbols and
`Phrase.eval` gives its value, operands and quotients from left to right.
-/

namespace Worksheet.Expr

/-- The three kinds of phrase. -/
inductive Rank where
  | factor | product | sum
deriving Repr, DecidableEq

/-- A phrase whose operands are of type `α`. -/
inductive Phrase (α : Type) : Rank → Type where
  | operand (a : α) : Phrase α .factor
  | group (e : Phrase α .sum) : Phrase α .factor
  | factor (f : Phrase α .factor) : Phrase α .product
  | multiply (t : Phrase α .product) (divides : Bool) (f : Phrase α .factor) : Phrase α .product
  | product (t : Phrase α .product) : Phrase α .sum
  | sum (e : Phrase α .sum) (subtracts : Bool) (t : Phrase α .product) : Phrase α .sum

namespace Phrase

variable {m : Type → Type} [Monad m] {N α : Type}

/-- The operator between the parts of a product. -/
def multiplier (divides : Bool) : Op := if divides then .div else .mul

/-- The operator between the parts of a sum. -/
def summand (subtracts : Bool) : Op := if subtracts then .sub else .add

/-- The symbols of a phrase. -/
def symbols : {rank : Rank} → Phrase α rank → List (Symbol α)
  | _, operand a => [.operand a]
  | _, group e => .opening :: e.symbols ++ [.closing]
  | _, factor f => f.symbols
  | _, multiply t divides f => t.symbols ++ .op (multiplier divides) :: f.symbols
  | _, product t => t.symbols
  | _, sum e subtracts t => e.symbols ++ .op (summand subtracts) :: t.symbols

/-- The value of a phrase. -/
def eval (A : Arithmetic m N) (lookup : α → m N) : {rank : Rank} → Phrase α rank → m N
  | _, operand a => lookup a
  | _, group e => e.eval A lookup
  | _, factor f => f.eval A lookup
  | _, multiply t divides f => do
    let left ← t.eval A lookup
    let right ← f.eval A lookup
    A.apply (multiplier divides) left right
  | _, product t => t.eval A lookup
  | _, sum e subtracts t => do
    let left ← e.eval A lookup
    let right ← t.eval A lookup
    A.apply (summand subtracts) left right

/-- Whether a row of symbols is an expression. -/
def Derivable (xs : List (Symbol α)) : Prop := ∃ e : Phrase α .sum, e.symbols = xs

@[simp] theorem isAdditive_multiplier (b : Bool) : (multiplier b).isAdditive = false := by
  cases b <;> rfl

@[simp] theorem isAdditive_summand (b : Bool) : (summand b).isAdditive = true := by
  cases b <;> rfl

end Phrase
end Worksheet.Expr
