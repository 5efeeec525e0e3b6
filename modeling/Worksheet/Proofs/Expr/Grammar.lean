import Worksheet.Proofs.Expr.Order

/-!
# The flat grammar

The order of symbols can be told without ranks of operators: an expression is a term, or an
expression, an operator and a term; a term is an operand, or an expression in parentheses.
`derives_iff_derivable` shows that this grammar has the rows of symbols that the phrases have, so
the ranks only tell how a row is grouped.
-/

namespace Worksheet.Expr

variable {α : Type}

/-- The two kinds of row that the flat grammar knows. -/
inductive Category where
  | expression | term
deriving Repr, DecidableEq

/-- The rows that the flat grammar derives: `E → T | E op T` and `T → operand | ( E )`. -/
inductive Derives : Category → List (Symbol α) → Prop
  | operand (a : α) : Derives .term [.operand a]
  | group {xs : List (Symbol α)} : Derives .expression xs →
    Derives .term (.opening :: xs ++ [.closing])
  | term {xs : List (Symbol α)} : Derives .term xs → Derives .expression xs
  | op {xs ys : List (Symbol α)} (o : Op) : Derives .expression xs → Derives .term ys →
    Derives .expression (xs ++ .op o :: ys)

theorem Derives.ordered {category : Category} {xs : List (Symbol α)} (h : Derives category xs)
    (depth : Nat) (ys : List (Symbol α)) :
    Ordered depth false (xs ++ ys) ↔ Ordered depth true ys := by
  induction h generalizing depth ys with
  | operand a => simp [Ordered]
  | group _ ih => simp [Ordered, ih]
  | term _ ih => exact ih depth ys
  | op o _ _ ihx ihy => simp [Ordered, ihx, ihy]

/-- Two expressions with an operator between them are an expression, although the grammar asks for a
term behind the operator. -/
theorem Derives.join {xs ys : List (Symbol α)} (hx : Derives .expression xs) (o : Op)
    (hy : Derives .expression ys) : Derives .expression (xs ++ .op o :: ys) := by
  generalize hcategory : Category.expression = category at hy
  induction hy with
  | operand a => cases hcategory
  | group _ _ => cases hcategory
  | term hterm _ => exact .op o hx hterm
  | @op ys zs o' hleft hterm ihleft _ =>
    -- The last operator of `ys` becomes the last operator of the whole.
    have hfront := ihleft rfl
    rw [← List.cons_append, ← List.append_assoc]
    exact .op o' hfront hterm

/-- What the flat grammar calls a phrase of each rank. -/
def Rank.category : Rank → Category
  | .factor => .term
  | .product | .sum => .expression

theorem Phrase.derives {rank : Rank} (e : Phrase α rank) : Derives rank.category e.symbols := by
  induction e with
  | operand a => exact .operand a
  | group e ih => exact .group ih
  | factor f ih => exact .term ih
  | multiply t divides f iht ihf => exact .op _ iht ihf
  | product t ih => exact ih
  | sum e subtracts t ihe iht => exact ihe.join _ iht

/-- The flat grammar and the phrases have the same rows. -/
theorem derives_iff_derivable {xs : List (Symbol α)} :
    Derives .expression xs ↔ Phrase.Derivable xs := by
  constructor
  · intro h
    have hordered := (h.ordered 0 []).mpr ⟨rfl, rfl⟩
    rw [List.append_nil] at hordered
    exact derivable_iff_ordered.mpr hordered
  · rintro ⟨e, rfl⟩
    exact e.derives

end Worksheet.Expr
