import Worksheet.Text.Blank

/-!
# Symbols of arithmetic

An expression is a row of symbols: parentheses, the four operators, and operands. This module says
how the text of an expression falls into fragments and which symbol a fragment is.

* `fragments_append_blank`, `fragments_append_punctuation`: a text may be cut at any blank character
  and at any parenthesis or operator without changing its fragments.
* `flatten_fragments`: the fragments hold the text without its blank characters.
-/

namespace Worksheet.Expr

open Worksheet.Text (isBlank)

/-- The four operators. -/
inductive Op where
  | add | sub | mul | div
deriving Repr, DecidableEq

namespace Op

/-- The character of an operator. -/
def char : Op → Char
  | add => '+'
  | sub => '-'
  | mul => '*'
  | div => '/'

/-- The operator of a character. -/
def ofChar? : Char → Option Op
  | '+' => some add
  | '-' => some sub
  | '*' => some mul
  | '/' => some div
  | _ => none

/-- Whether an operator adds or subtracts. These bind less tightly than the other two. -/
def isAdditive : Op → Bool
  | add | sub => true
  | mul | div => false

/-- An operator is read from no other character than the one that it is written with. -/
theorem char_of_ofChar? {c : Char} {o : Op} (h : ofChar? c = some o) : o.char = c := by
  unfold ofChar? at h
  split at h <;> simp_all <;> subst h <;> rfl

end Op

/-- A symbol of an expression whose operands are of type `α`. -/
inductive Symbol (α : Type) where
  | opening
  | closing
  | op (o : Op)
  | operand (a : α)
deriving Repr, DecidableEq

namespace Symbol

/-- Changes the operands. -/
def map {α β : Type} (f : α → β) : Symbol α → Symbol β
  | opening => opening
  | closing => closing
  | op o => op o
  | operand a => operand (f a)

/-- The operand, if the symbol is one. -/
def operand? {α : Type} : Symbol α → Option α
  | operand a => some a
  | _ => none

/-- The parenthesis or operator that a character stands for. -/
def ofChar? {α : Type} : Char → Option (Symbol α)
  | '(' => some opening
  | ')' => some closing
  | c => (Op.ofChar? c).map op

/-- The symbol that a fragment stands for: every text but the parentheses and operators is an
operand. -/
def ofFragment : List Char → Symbol (List Char)
  | [c] => (ofChar? c).getD (operand [c])
  | cs => operand cs

/-- The text of a symbol, given the text of its operand. -/
def text {α : Type} (operandText : α → List Char) : Symbol α → List Char
  | opening => ['(']
  | closing => [')']
  | op o => [o.char]
  | operand a => operandText a

end Symbol

/-- Whether a character is a parenthesis or an operator. -/
def isPunctuation (c : Char) : Bool := (Symbol.ofChar? (α := Empty) c).isSome

/-- Whether a character belongs to an operand. -/
def isPlain (c : Char) : Bool := !isPunctuation c && !isBlank c

/-- The operand read so far, its last character first, as a fragment. -/
def flush (held : List Char) : List (List Char) := if held = [] then [] else [held.reverse]

/-- The fragments of a text, when `held` has been read before it. -/
def cut (held : List Char) : List Char → List (List Char)
  | [] => flush held
  | c :: cs =>
    if isBlank c then flush held ++ cut [] cs
    else if isPunctuation c then flush held ++ [c] :: cut [] cs
    else cut (c :: held) cs

/-- The fragments of a text: each parenthesis and operator, and the longest runs of other characters
between them and the white space. -/
def fragments (cs : List Char) : List (List Char) := cut [] cs

/-! ### Cutting a text

What has been read only matters as far as it is held, so a text that is cut where nothing is held
falls into the fragments of its parts.
-/

/-- A blank character ends what is held and stands in no fragment. -/
theorem cut_append_blank {w : Char} (hw : isBlank w = true) (held xs ys : List Char) :
    cut held (xs ++ w :: ys) = cut held xs ++ cut [] ys := by
  induction xs generalizing held with
  | nil => simp [cut, hw]
  | cons x xs ih =>
    simp only [List.cons_append, cut, ih]
    split
    · rw [List.append_assoc]
    · split
      · simp
      · rfl

/-- A parenthesis or operator ends it too, and is kept. -/
theorem cut_append_punctuation {o : Char} (ho : isPunctuation o = true) (hb : isBlank o = false)
    (held xs ys : List Char) :
    cut held (xs ++ o :: ys) = cut held xs ++ [o] :: cut [] ys := by
  induction xs generalizing held with
  | nil => simp [cut, ho, hb]
  | cons x xs ih =>
    simp only [List.cons_append, cut, ih]
    split
    · rw [List.append_assoc]
    · split
      · simp
      · rfl

/-- A text may be cut at a blank character. -/
theorem fragments_append_blank {w : Char} (hw : isBlank w = true) (xs ys : List Char) :
    fragments (xs ++ w :: ys) = fragments xs ++ fragments ys :=
  cut_append_blank hw [] xs ys

/-- A parenthesis or operator is a fragment of its own. -/
theorem fragments_append_punctuation {o : Char} (ho : isPunctuation o = true)
    (hb : isBlank o = false) (xs ys : List Char) :
    fragments (xs ++ o :: ys) = fragments xs ++ [o] :: fragments ys :=
  cut_append_punctuation ho hb [] xs ys

/-- What is held comes out in front. -/
theorem flatten_cut (held cs : List Char) :
    (cut held cs).flatten = held.reverse ++ cs.filter (!isBlank ·) := by
  induction cs generalizing held with
  | nil => by_cases h : held = [] <;> simp [cut, flush, h]
  | cons c cs ih =>
    have hflush : (flush held).flatten = held.reverse := by
      by_cases h : held = [] <;> simp [flush, h]
    simp only [cut]
    split
    · next hc => simp [hflush, ih, hc]
    · next hc =>
      split <;> simp [hflush, ih, hc]

/-- The fragments hold the text without its blank characters. -/
theorem flatten_fragments (cs : List Char) : (fragments cs).flatten = cs.filter (!isBlank ·) :=
  flatten_cut [] cs

end Worksheet.Expr
