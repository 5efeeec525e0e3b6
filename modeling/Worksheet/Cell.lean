import Worksheet.Formula.Evaluation

/-!
# Cells

What is typed into a cell is a number, a formula, a text, or nothing at all. A cell keeps its
content and the value last computed from it.

* `Content.parse` tells which kind a text is: a finite number first, then a formula if it begins
  with `=`, then text; the empty text is no content.
* `Content.text` is the text that would be typed for a content.
-/

namespace Worksheet

open Worksheet.Formula (Fault Reason Reply)

/-- The content of a cell. -/
inductive Content where
  | number (x : Float)
  | text (s : String)
  | formula (f : Formula)
deriving DecidableEq

/-- The value of a cell. -/
inductive Value where
  | number (x : Float)
  | text (s : String)
  | error (reason : Reason)
deriving DecidableEq

/-- The text that stands for a formula without a value. -/
def Formula.Reason.text (reason : Reason) : String := "#ERROR(" ++ reason.message ++ ")"

/-- How a value is shown. -/
def Value.shown : Value → String
  | number x => Number.shown x
  | text s => Text.quoted s
  | error reason => "EvaluationError(reason=" ++ Text.quoted reason.message ++ ")"

namespace Content

/-- The content that a text stands for, if any. -/
def parse (naming : Naming) (raw : String) : Except Fault (Option Content) :=
  match Number.read? raw.toList with
  | some x => .ok (some (number x))
  | none =>
    match raw.toList with
    | [] => .ok none
    | '=' :: cs => (Formula.parse naming (String.ofList cs)).map (some ∘ formula)
    | _ => .ok (some (text raw))

/-- The text that would be typed for the content. -/
def typed : Content → String
  | number x => Number.text x
  | text s => s
  | formula f => "=" ++ f.text

/-- The variables that the content reads. -/
def reads : Content → List String
  | formula f => f.reads
  | _ => []

/-- The value of the content. A formula whose symbols are in order is never found malformed, so such an
error is the value of no cell that has been set. -/
def compute {m : Type → Type} [Monad m] (lookup : String → m Reply) : Content → m Value
  | number x => pure (.number x)
  | text s => pure (.text s)
  | formula f => do
    match ← f.evaluate lookup with
    | .ok x => pure (.number x)
    | .error reason => pure (.error reason)

end Content

/-- A cell of a sheet. -/
structure Cell where
  content : Content
  value : Value
deriving DecidableEq

/-- How a cell with the given typed text and value is shown. -/
def Cell.describe (typed : String) (value : Value) : String :=
  "Cell(" ++ Text.quoted typed ++ ", value=" ++ value.shown ++ ")"

/-- How a cell is shown. -/
def Cell.shown (c : Cell) : String := describe c.content.typed c.value

end Worksheet
