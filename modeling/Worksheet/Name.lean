import Worksheet.Number.Text
import Worksheet.Text.Quoted

/-!
# Names

Cells and variables are named by identifiers: a letter or underscore, then letters, digits and
underscores, all of plain text. A sheet maps each name to a normal form and may accept only some of
the normal forms; unless told otherwise it accepts letters followed by digits.
-/

namespace Worksheet

/-- Whether a character may begin an identifier. -/
def isIdentifierStart (c : Char) : Bool := c.isAlpha || c == '_'

/-- Whether a character may continue an identifier. -/
def isIdentifierPart (c : Char) : Bool := c.isAlphanum || c == '_'

/-- Whether a text is an identifier. -/
def isIdentifier (name : String) : Bool :=
  match name.toList with
  | [] => false
  | c :: cs => isIdentifierStart c && cs.all isIdentifierPart

/-- Whether a text is letters followed by digits, at least one of each. -/
def isCellName (name : String) : Bool :=
  let cs := name.toList
  let digits := cs.dropWhile Char.isAlpha
  cs.head?.any Char.isAlpha && !digits.isEmpty && digits.all Char.isDigit

/-- How a sheet reads names: the normal form of a name, and which normal forms it accepts. -/
structure Naming where
  normalize : String → String
  isValid : String → Bool

namespace Naming

/-- Every identifier is its own normal form, and letters followed by digits are accepted. -/
def standard : Naming := ⟨id, isCellName⟩

/-- The normal form of an identifier, if it is accepted. -/
def resolve? (naming : Naming) (name : String) : Option String :=
  let normal := naming.normalize name
  if isIdentifier normal && naming.isValid normal then some normal else none

end Naming

/-- What a caller may hand over as a name. Only a text can be one. -/
inductive Scalar where
  | text (s : String)
  | nothing
  | truth (b : Bool)
  | integer (n : Int)
  | real (x : Float)
deriving DecidableEq

namespace Scalar

/-- How a value is shown in messages. -/
def shown : Scalar → String
  | text s => Text.quoted s
  | nothing => "None"
  | truth true => "True"
  | truth false => "False"
  | integer n => toString n
  | real x => Number.shown x

/-- Whether a value is a text that is an identifier. -/
def isIdentifier : Scalar → Bool
  | text s => Worksheet.isIdentifier s
  | _ => false

end Scalar

/-- The normal form of what is handed over as the name of a cell, if it names one. -/
def Naming.cell? (naming : Naming) : Scalar → Option String
  | .text s => if isIdentifier s then naming.resolve? s else none
  | _ => none

end Worksheet
