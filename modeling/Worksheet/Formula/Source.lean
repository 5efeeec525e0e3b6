import Worksheet.Expr.Phrase
import Worksheet.Name

/-!
# Formulas as they are typed

The text of a formula falls into symbols, each taken as long as possible: parentheses and operators,
identifiers, numerals, and white space, which only separates. `scan` finds the symbols and `check`
tells whether their order is that of an expression.

* `length_le_of_next`: a symbol takes at least one character, so scanning ends.
-/

namespace Worksheet.Formula

open Worksheet.Expr (Op Symbol)
open Worksheet.Number (Numeral)
open Worksheet.Text (isBlank)

/-- An operand as it is typed. -/
inductive Term where
  | variable (name : List Char)
  | numeral (n : Numeral)
deriving Repr, DecidableEq

/-- The operand as it is typed. -/
def Term.text : Term → List Char
  | .variable name => name
  | .numeral n => n.text

/-- What is wrong with the text of a formula. Symbols are given as they are typed. -/
inductive Fault where
  | invalidCharacter (c : Char) (position : Nat)
  | empty
  | cannotStart (symbol : List Char)
  | cannotEnd (symbol : List Char)
  | unexpectedClosing
  | missingClosing
  | expectedOperand (symbol : List Char)
  | expectedOperator (symbol : List Char)
  | invalidVariable (name : List Char)
  | outOfRange (numeral : List Char)
deriving Repr, DecidableEq

/-- The wording of the fault. -/
def Fault.message : Fault → String
  | invalidCharacter c position =>
    "Invalid character " ++ shown [c] ++ " at position " ++ toString position
  | empty => "Formula is empty"
  | cannotStart symbol => "Formula cannot start with " ++ shown symbol
  | cannotEnd symbol => "Formula cannot end with " ++ shown symbol
  | unexpectedClosing => "Unbalanced parentheses: unexpected ')'"
  | missingClosing => "Unbalanced parentheses: missing ')'"
  | expectedOperand symbol => "Expected a number, variable or '(' before " ++ shown symbol
  | expectedOperator symbol => "Expected an operator or ')' before " ++ shown symbol
  | invalidVariable name => "Invalid variable: " ++ shown name
  | outOfRange numeral => "Number out of range: " ++ shown numeral
where
  /-- A symbol as it is shown in messages. -/
  shown (cs : List Char) : String := Text.quoted (String.ofList cs)

/-! ### Symbols -/

/-- The symbol that begins with `c`, if `c` is not blank, and what is left. -/
def next (c : Char) (cs : List Char) : Option (Option (Symbol Term) × List Char) :=
  if isBlank c then some (none, cs)
  else match Symbol.ofChar? c with
    | some symbol => some (some symbol, cs)
    | none =>
      if isIdentifierStart c then
        some (some (.operand (.variable (c :: cs.takeWhile isIdentifierPart))),
          cs.dropWhile isIdentifierPart)
      else
        (Numeral.scan (c :: cs)).map fun (n, rest) => (some (.operand (.numeral n)), rest)

theorem length_dropWhile_le {α : Type} (p : α → Bool) (l : List α) :
    (l.dropWhile p).length ≤ l.length :=
  (List.dropWhile_sublist p).length_le

/-- A symbol takes at least one character. -/
theorem length_le_of_next {c : Char} {cs rest : List Char} {symbol : Option (Symbol Term)}
    (h : next c cs = some (symbol, rest)) : rest.length ≤ cs.length := by
  unfold next at h
  split at h
  · simp_all
  · split at h
    · simp_all
    · split at h
      · simp only [Option.some.injEq, Prod.mk.injEq] at h
        rw [← h.2]
        exact length_dropWhile_le _ _
      · simp only [Option.map_eq_some_iff, Prod.mk.injEq, Prod.exists] at h
        obtain ⟨n, r, hn, -, rfl⟩ := h
        have := Numeral.length_lt_of_scan hn
        simp only [List.length_cons] at this
        omega

section

-- The equations of `scanFrom` are found without looking into `next`.
attribute [local irreducible] next

/-- The symbols of what is left of a text of `total` characters. -/
def scanFrom (total : Nat) : List Char → Except Fault (List (Symbol Term))
  | [] => .ok []
  | c :: cs =>
    match h : next c cs with
    | none => .error (.invalidCharacter c (total - (cs.length + 1)))
    | some (symbol, rest) =>
      (scanFrom total rest).map (symbol.toList ++ ·)
termination_by cs => cs.length
decreasing_by
  have := length_le_of_next h
  simp only [List.length_cons]
  omega

theorem scanFrom_nil (total : Nat) : scanFrom total [] = .ok [] := by
  rw [scanFrom]

/-- A text is scanned token by token. -/
theorem scanFrom_cons {total : Nat} {c : Char} {cs rest : List Char}
    {symbol : Option (Symbol Term)} (h : next c cs = some (symbol, rest)) :
    scanFrom total (c :: cs) = (scanFrom total rest).map (symbol.toList ++ ·) := by
  rw [scanFrom]
  split
  · next hnone =>
    rw [h] at hnone
    cases hnone
  · next hsome =>
    rw [h] at hsome
    cases hsome
    rfl

end

/-- The symbols of a text. -/
def scan (text : List Char) : Except Fault (List (Symbol Term)) := scanFrom text.length text

/-! ### Order of the symbols -/

/-- The symbol as it is typed. -/
def source (symbol : Symbol Term) : List Char := symbol.text Term.text

/-- Whether an operand may begin with the symbol. -/
def startsOperand : Symbol Term → Bool
  | .opening | .operand _ => true
  | .closing | .op _ => false

/-- Whether an operand may end with the symbol. -/
def endsOperand : Symbol Term → Bool
  | .closing | .operand _ => true
  | .opening | .op _ => false

/-- Checks each symbol against the one before it, with `depth` open parentheses. -/
def checkFrom (depth : Nat) (previous : Option (Symbol Term)) :
    List (Symbol Term) → Except Fault Unit
  | [] => if depth = 0 then .ok () else .error .missingClosing
  | symbol :: rest =>
    if symbol = .closing ∧ depth = 0 then .error .unexpectedClosing
    else if previous.any (!endsOperand ·) ∧ !startsOperand symbol then
      .error (.expectedOperand (source symbol))
    else if previous.any endsOperand ∧ startsOperand symbol then
      .error (.expectedOperator (source symbol))
    else
      let depth := match symbol with
        | .opening => depth + 1
        | .closing => depth - 1
        | _ => depth
      checkFrom depth (some symbol) rest

/-- Whether the symbols are those of an expression, or what is wrong with them. -/
def check (symbols : List (Symbol Term)) : Except Fault Unit :=
  match symbols.head?, symbols.getLast? with
  | some first, some last =>
    if !startsOperand first then .error (.cannotStart (source first))
    else if !endsOperand last then .error (.cannotEnd (source last))
    else checkFrom 0 none symbols
  | _, _ => .error .empty

end Worksheet.Formula
