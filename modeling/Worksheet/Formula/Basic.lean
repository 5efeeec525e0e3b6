import Worksheet.Formula.Source

/-!
# Formulas

A formula is the row of its symbols in canonical form: variables in normal form, numbers as doubles.
`parse` reads the text behind the `=` of a formula cell, and `text` is the canonical text, which
leaves white space out and writes each number in its shortest form. Two formulas are the same if
their canonical texts are.
-/

namespace Worksheet

open Worksheet.Expr (Symbol)

/-- An operand of a formula. -/
inductive Formula.Atom where
  | number (x : Float)
  | variable (name : String)
deriving DecidableEq

/-- The operand in canonical text. -/
def Formula.Atom.text : Atom → List Char
  | number x => Number.render [] x
  | .variable name => name.toList

/-- The variable, if the operand is one. -/
def Formula.Atom.variable? : Atom → Option String
  | number _ => none
  | .variable name => some name

/-- A formula: its symbols in order. -/
structure Formula where
  symbols : List (Symbol Formula.Atom)
deriving DecidableEq

namespace Formula

/-- The operand that a typed operand stands for. -/
def resolve (naming : Naming) : Term → Except Fault Atom
  | .variable name =>
    match naming.resolve? (String.ofList name) with
    | some normal => .ok (.variable normal)
    | none => .error (.invalidVariable name)
  | .numeral n =>
    let x := Number.ofDecimal false n.decimal
    if Number.isFinite x then .ok (.number x) else .error (.outOfRange n.text)

/-- The symbol that a typed symbol stands for. -/
def resolveSymbol (naming : Naming) : Symbol Term → Except Fault (Symbol Atom)
  | .opening => .ok .opening
  | .closing => .ok .closing
  | .op o => .ok (.op o)
  | .operand t => (resolve naming t).map .operand

/-- Reads a formula. Its variables are taken to their normal forms, which must be accepted, and its
numbers must be finite. -/
def parse (naming : Naming) (text : String) : Except Fault Formula := do
  let symbols ← scan text.toList
  check symbols
  return ⟨← symbols.mapM (resolveSymbol naming)⟩

/-- How a formula reads the names of its variables when no sheet tells: each identifier stands for
itself. -/
def anyName : Naming := ⟨id, fun _ => true⟩

/-- The symbols in canonical text. -/
def tokens (f : Formula) : List String :=
  f.symbols.map fun symbol => String.ofList (symbol.text Atom.text)

/-- The canonical text. -/
def text (f : Formula) : String :=
  String.ofList (f.symbols.flatMap (Symbol.text Atom.text))

/-- The variables, each once, in the order of their first occurrences. -/
def reads (f : Formula) : List String :=
  (f.symbols.filterMap fun symbol => symbol.operand?.bind Atom.variable?).eraseDups

/-- How a formula is shown as a value. -/
def shown (f : Formula) : String := "Formula(" ++ Text.quoted f.text ++ ")"

end Formula
end Worksheet
