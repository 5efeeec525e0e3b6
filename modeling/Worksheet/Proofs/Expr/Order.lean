import Mathlib
import Worksheet.Expr.Phrase

/-!
# The order of symbols

Which rows of symbols are expressions, told from the row alone. From left to right there are two
states: an operand is to begin, or one has ended. `Ordered` reads a row in this way and counts the open
parentheses.

* `derivable_iff_ordered`: the ordered rows are the expressions.
* `surplus_le`: where operands do not stand side by side, no row has more operands than it may have,
  and a row that has as many is ordered.
* `derivable_iff_separated`: so a balanced row with the right number of operands is an expression
  unless operands stand side by side.
-/

namespace Worksheet.Expr

variable {α : Type}

/-- The symbols that are left of an expression, `depth` parentheses being open. If `ended` holds, an
operand has just ended, else one is to begin. -/
def Ordered (depth : Nat) (ended : Bool) : List (Symbol α) → Prop
  | [] => depth = 0 ∧ ended = true
  | .opening :: xs => ended = false ∧ Ordered (depth + 1) false xs
  | .closing :: xs => ended = true ∧ 0 < depth ∧ Ordered (depth - 1) true xs
  | .op _ :: xs => ended = true ∧ Ordered depth false xs
  | .operand _ :: xs => ended = false ∧ Ordered depth true xs

/-! ### Expressions are ordered -/

namespace Phrase

/-- Reading a phrase takes one from where an operand is to begin to where one has ended. -/
theorem ordered_symbols {rank : Rank} (e : Phrase α rank) (depth : Nat) (xs : List (Symbol α)) :
    Ordered depth false (e.symbols ++ xs) ↔ Ordered depth true xs := by
  induction e generalizing depth xs with
  | operand a => simp [symbols, Ordered]
  | group e ih => simp [symbols, Ordered, ih]
  | factor f ih => exact ih depth xs
  | multiply t divides f iht ihf => simp [symbols, Ordered, iht, ihf]
  | product t ih => exact ih depth xs
  | sum e subtracts t ihe iht => simp [symbols, Ordered, ihe, iht]

/-- Every operator that adds or subtracts stands in some sum. -/
theorem exists_summand {o : Op} (h : o.isAdditive = true) : ∃ subtracts, summand subtracts = o := by
  cases o with
  | add => exact ⟨false, rfl⟩
  | sub => exact ⟨true, rfl⟩
  | mul => cases h
  | div => cases h

theorem exists_multiplier {o : Op} (h : o.isAdditive = false) :
    ∃ divides, multiplier divides = o := by
  cases o with
  | add => cases h
  | sub => cases h
  | mul => exact ⟨false, rfl⟩
  | div => exact ⟨true, rfl⟩

end Phrase

/-! ### Ordered rows are expressions

A row is read from the left and the phrase is built as it goes: in each open group there is a sum
that is not yet complete, of which the last factor is still to come. `Lead` is what has been read of
such a sum.
-/

/-- What stands in front of a factor in a sum: perhaps a sum with the operator behind it, and then
perhaps a product with the operator behind it. -/
structure Lead (α : Type) where
  sum : Option (Phrase α .sum × Bool)
  product : Option (Phrase α .product × Bool)

namespace Lead

/-- The symbols in front of the factor. -/
def symbols (l : Lead α) : List (Symbol α) :=
  (match l.sum with
    | none => []
    | some (e, subtracts) => e.symbols ++ [.op (Phrase.summand subtracts)])
  ++ match l.product with
    | none => []
    | some (t, divides) => t.symbols ++ [.op (Phrase.multiplier divides)]

/-- The product that the factor ends. -/
def toProduct (l : Lead α) (f : Phrase α .factor) : Phrase α .product :=
  match l.product with
  | none => .factor f
  | some (t, divides) => .multiply t divides f

/-- The sum that the factor ends. -/
def toSum (l : Lead α) (f : Phrase α .factor) : Phrase α .sum :=
  match l.sum with
  | none => .product (l.toProduct f)
  | some (e, subtracts) => .sum e subtracts (l.toProduct f)

/-- What stands in front of the factor behind an addition or subtraction. -/
def add (l : Lead α) (f : Phrase α .factor) (subtracts : Bool) : Lead α :=
  ⟨some (l.toSum f, subtracts), none⟩

/-- What stands in front of the factor behind a multiplication or division. -/
def multiply (l : Lead α) (f : Phrase α .factor) (divides : Bool) : Lead α :=
  { l with product := some (l.toProduct f, divides) }

variable (l : Lead α) (f : Phrase α .factor)

/-- The sum is written as what stands in front of the factor, and the factor. -/
theorem symbols_toSum : (l.toSum f).symbols = l.symbols ++ f.symbols := by
  obtain ⟨sum, product⟩ := l
  cases sum <;> cases product <;> simp [toSum, toProduct, symbols, Phrase.symbols]

/-- Behind an addition the sum so far stands in front. -/
theorem symbols_add (subtracts : Bool) :
    (l.add f subtracts).symbols = l.symbols ++ f.symbols ++ [.op (Phrase.summand subtracts)] := by
  rw [← symbols_toSum]
  exact List.append_nil _

/-- Behind a multiplication the product so far does. -/
theorem symbols_multiply (divides : Bool) :
    (l.multiply f divides).symbols
      = l.symbols ++ f.symbols ++ [.op (Phrase.multiplier divides)] := by
  obtain ⟨sum, product⟩ := l
  cases product <;> simp [multiply, toProduct, symbols, Phrase.symbols]

end Lead

/-- The symbols in front of the innermost of some open groups, the innermost group first. -/
def leading : List (Lead α) → List (Symbol α)
  | [] => []
  | l :: outer => leading outer ++ l.symbols ++ [.opening]

/-- Behind what leads to a factor, or behind the factor itself, an ordered row completes an
expression. -/
theorem exists_of_ordered (outer : List (Lead α)) (l : Lead α) (xs : List (Symbol α)) :
    (Ordered outer.length false xs → Phrase.Derivable (leading outer ++ l.symbols ++ xs))
      ∧ ∀ f : Phrase α .factor, Ordered outer.length true xs →
        Phrase.Derivable (leading outer ++ l.symbols ++ f.symbols ++ xs) := by
  induction xs generalizing outer l with
  | nil =>
    refine ⟨fun h => ?_, fun f h => ?_⟩
    · cases h.2
    · obtain rfl := List.length_eq_zero_iff.mp h.1
      refine ⟨l.toSum f, ?_⟩
      rw [l.symbols_toSum]
      simp [leading]
  | cons x xs ih =>
    cases x with
    | opening =>
      refine ⟨fun h => ?_, fun f h => ?_⟩
      · -- A new group begins, and nothing stands in it yet.
        have hgroup := (ih (l :: outer) ⟨none, none⟩).1 h.2
        simpa [leading, Lead.symbols] using hgroup
      · cases h.1
    | closing =>
      refine ⟨fun h => ?_, fun f h => ?_⟩
      · cases h.1
      · -- The innermost group ends, and is a factor of the one around it.
        cases outer with
        | nil => exact absurd h.2.1 (lt_irrefl 0)
        | cons l' outer =>
          have hfactor := (ih outer l').2 (.group (l.toSum f)) h.2.2
          simpa [leading, Phrase.symbols, Lead.symbols_toSum] using hfactor
    | op o =>
      refine ⟨fun h => ?_, fun f h => ?_⟩
      · cases h.1
      · cases ho : o.isAdditive with
        | true =>
          obtain ⟨subtracts, rfl⟩ := Phrase.exists_summand ho
          have hnext := (ih outer (l.add f subtracts)).1 h.2
          simpa [Lead.symbols_add] using hnext
        | false =>
          obtain ⟨divides, rfl⟩ := Phrase.exists_multiplier ho
          have hnext := (ih outer (l.multiply f divides)).1 h.2
          simpa [Lead.symbols_multiply] using hnext
    | operand a =>
      refine ⟨fun h => ?_, fun f h => ?_⟩
      · have hfactor := (ih outer l).2 (.operand a) h.2
        simpa [Phrase.symbols] using hfactor
      · cases h.1

/-- A row of symbols is an expression if and only if it is ordered. -/
theorem derivable_iff_ordered {xs : List (Symbol α)} : Phrase.Derivable xs ↔ Ordered 0 false xs := by
  constructor
  · rintro ⟨e, rfl⟩
    have h := (e.ordered_symbols 0 []).mpr ⟨rfl, rfl⟩
    rwa [List.append_nil] at h
  · intro h
    simpa [leading, Lead.symbols] using (exists_of_ordered [] ⟨none, none⟩ xs).1 h

/-! ### Counting operands and operators

An expression has one operand more than operators, and its parentheses are closed. The converse is
false, since an operator may stand in front of its operands or behind them; but then two operands
stand side by side somewhere.
-/

/-- An operand counts one more, an operator one less. -/
def Symbol.weight : Symbol α → Int
  | .operand _ => 1
  | .op _ => -1
  | .opening | .closing => 0

/-- How many operands a row has more than operators. -/
def surplus (xs : List (Symbol α)) : Int := (xs.map Symbol.weight).sum

@[simp] theorem surplus_nil : surplus ([] : List (Symbol α)) = 0 := rfl

@[simp] theorem surplus_cons (x : Symbol α) (xs : List (Symbol α)) :
    surplus (x :: xs) = x.weight + surplus xs := List.sum_cons

/-- The parentheses of a row close `depth` that are open before it, and all that open in it. -/
def Balanced (depth : Nat) : List (Symbol α) → Prop
  | [] => depth = 0
  | .opening :: xs => Balanced (depth + 1) xs
  | .closing :: xs => 0 < depth ∧ Balanced (depth - 1) xs
  | .op _ :: xs | .operand _ :: xs => Balanced depth xs

/-- No operand begins where another has just ended. `ended` tells whether one has ended in front of the
row. -/
def Separated (ended : Bool) : List (Symbol α) → Prop
  | [] => True
  | .opening :: xs => ended = false ∧ Separated false xs
  | .closing :: xs => Separated true xs
  | .op _ :: xs => Separated false xs
  | .operand _ :: xs => ended = false ∧ Separated true xs

/-- How many operands more than operators an expression still needs. -/
def missing (ended : Bool) : Int := if ended then 0 else 1

@[simp] theorem missing_false : missing false = 1 := rfl

@[simp] theorem missing_true : missing true = 0 := rfl

/-- At most one operand is needed. -/
theorem missing_le (ended : Bool) : 0 ≤ missing ended ∧ missing ended ≤ 1 := by
  cases ended <;> decide

theorem ended_of_missing {ended : Bool} (h : missing ended ≤ 0) : ended = true := by
  cases ended with
  | true => rfl
  | false => exact absurd h (by decide)

/-- Each operator in a wrong place costs an operand, so a separated row has at most the operands that
it needs; if it has them all, then no operator is in a wrong place. -/
theorem surplus_le {depth : Nat} {ended : Bool} {xs : List (Symbol α)} (hbalanced : Balanced depth xs)
    (hseparated : Separated ended xs) :
    surplus xs ≤ missing ended ∧ (surplus xs = missing ended → Ordered depth ended xs) := by
  induction xs generalizing depth ended with
  | nil =>
    refine ⟨(missing_le ended).1, fun h => ⟨hbalanced, ended_of_missing h.ge⟩⟩
  | cons x xs ih =>
    cases x with
    | opening =>
      obtain ⟨rfl, hseparated⟩ := hseparated
      obtain ⟨hle, hordered⟩ := ih hbalanced hseparated
      simp only [surplus_cons, Symbol.weight, zero_add]
      exact ⟨hle, fun h => ⟨rfl, hordered h⟩⟩
    | closing =>
      obtain ⟨hdepth, hbalanced⟩ := hbalanced
      obtain ⟨hle, hordered⟩ := ih hbalanced hseparated
      simp only [surplus_cons, Symbol.weight, zero_add, missing_true] at hle hordered ⊢
      refine ⟨hle.trans (missing_le ended).1, fun h => ?_⟩
      have hended := ended_of_missing (h ▸ hle)
      exact ⟨hended, hdepth, hordered (by rw [h, hended, missing_true])⟩
    | op o =>
      obtain ⟨hle, hordered⟩ := ih hbalanced hseparated
      have hmissing := missing_le ended
      simp only [surplus_cons, Symbol.weight, missing_false] at hle hordered ⊢
      refine ⟨by omega, fun h => ?_⟩
      exact ⟨ended_of_missing (by omega), hordered (by omega)⟩
    | operand a =>
      obtain ⟨rfl, hseparated⟩ := hseparated
      obtain ⟨hle, hordered⟩ := ih hbalanced hseparated
      simp only [surplus_cons, Symbol.weight, missing_false, missing_true] at hle hordered ⊢
      exact ⟨by omega, fun h => ⟨rfl, hordered (by omega)⟩⟩

/-- An ordered row is separated. -/
theorem Ordered.separated {depth : Nat} {ended : Bool} {xs : List (Symbol α)}
    (h : Ordered depth ended xs) : Separated ended xs := by
  induction xs generalizing depth ended with
  | nil => exact trivial
  | cons x xs ih =>
    cases x with
    | opening => exact ⟨h.1, ih h.2⟩
    | closing => exact ih h.2.2
    | op o => exact ih h.2
    | operand a => exact ⟨h.1, ih h.2⟩

/-- A balanced row with one operand more than operators is an expression if and only if no operand
begins where another has just ended. -/
theorem derivable_iff_separated {xs : List (Symbol α)} (hbalanced : Balanced 0 xs)
    (hsurplus : surplus xs = 1) : Phrase.Derivable xs ↔ Separated false xs := by
  rw [derivable_iff_ordered]
  constructor
  · intro h
    exact h.separated
  · intro h
    exact (surplus_le hbalanced h).2 hsurplus

end Worksheet.Expr
