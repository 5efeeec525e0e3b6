import Worksheet.Xml.Markup

/-!
# Entities and attribute values

What the document type declaration contributes to the content of a document: the texts of entities
and the attributes that elements have unless told otherwise. The text of an entity may refer to
other entities, but not to itself through any number of them; `reach` bounds how deep references
can lead, and a text that would grow beyond all measure is refused before it is expanded.
-/

namespace Worksheet.Xml

/-- An entity: a text of the document itself, or something outside of it. -/
inductive Entity where
  | inner (text : List Char)
  | outer
deriving Repr, DecidableEq

/-- An attribute as it is declared for an element. -/
structure Definition where
  name : String
  /-- Whether white space in its value is kept. -/
  isText : Bool
  /-- The value that the attribute has unless told otherwise. -/
  value : Option (List Char)
deriving Repr, DecidableEq

/-- What is known from the document type declaration. -/
structure Doctype where
  entities : List (String × Entity)
  /-- The declared attributes, under the names of their elements, in order. -/
  definitions : List (String × Definition)
  /-- Whether there may be declarations outside of the document. -/
  hasOuterParts : Bool
  /-- Whether declarations still count. -/
  counts : Bool
  standalone : Bool
deriving Repr

namespace Doctype

/-- What is known before the declaration. -/
def initial (standalone : Bool) : Doctype := ⟨[], [], false, true, standalone⟩

/-- The entity of a name. The first declaration counts. -/
def entity? (d : Doctype) (name : String) : Option Entity := d.entities.lookup name

/-- How many entities may be open within one another. -/
def reach (d : Doctype) : Nat := d.entities.length

/-! ### Size of expansions -/

/-- The names of the entities that a text refers to. -/
def references : List Char → List String
  | [] => []
  | '&' :: cs =>
    match Reference.scan? .plain cs with
    | some (.entity name, _) => name :: references cs
    | _ => references cs
  | _ :: cs => references cs

/-- What the size of an expansion has to stay below: a fixed size, or a multiple of the size of the
text that is expanded, so that a text without declared entities is never too large. -/
def maxSize (cs : List Char) : Nat := max 8388608 (100 * cs.length + 1)

/-- The size of a text, given the sizes of entities. -/
def sizeWith (sizes : List (String × Nat)) (cs : List Char) : Nat :=
  (references cs).foldl (fun size name => size + (sizes.lookup name).getD 0) cs.length

/-- The sizes of the entities, expanded to the given depth or until nothing changes. Sizes from
`limit` on are not told apart. -/
def sizes (d : Doctype) (limit : Nat) : Nat → List (String × Nat) → List (String × Nat)
  | 0, known => known
  | depth + 1, known =>
    let next := d.entities.map fun (name, e) =>
      (name, match e with
        | .inner text => min limit (sizeWith known text)
        | .outer => 0)
    if next = known then known else sizes d limit depth next

/-- Whether a text expands to a bearable size. -/
def isBearable (d : Doctype) (cs : List Char) : Bool :=
  references cs = [] || sizeWith (d.sizes (maxSize cs) d.reach []) cs < maxSize cs

/-! ### Attribute values -/

/-- Cuts a value into characters and references to entities. White space counts as blanks, and an
opening bracket may not stand in a value. -/
def valueParts? (script : Script) : List Char → Option (List Reference)
  | [] => some []
  | c :: cs =>
    if c = '<' then none
    else if c = '&' then
      match Reference.scan? script cs with
      | some (reference, rest) =>
        if rest.length ≤ cs.length then (valueParts? script rest).map (reference :: ·) else none
      | none => none
    else (valueParts? script cs).map (.char (if isSpace c then ' ' else c) :: ·)
termination_by cs => cs.length

/-- The characters that a part stands for, where `expand` gives those of declared entities. -/
def partText? (expand : String → Option (List Char)) : Reference → Option (List Char)
  | .char c => some [c]
  | .entity name =>
    match predefined? name with
    | some c => some [c]
    | none => expand name

/-- The value of an attribute as it is written, with entities open to the given depth. An entity
that may be declared outside of the document is passed over. -/
def value? (d : Doctype) : Nat → Script → List Char → Option (List Char)
  | depth, script, cs =>
    let expand (name : String) : Option (List Char) :=
      match d.entity? name with
      | some (.inner text) =>
        match depth with
        | 0 => none
        | depth + 1 => value? d depth .plain (unifyLines text)
      | some .outer => none
      | none => if d.hasOuterParts && !d.standalone then some [] else none
    match valueParts? script cs with
    | some parts => (parts.mapM (partText? expand)).map List.flatten
    | none => none

/-- Merges runs of blanks and drops those at the end. -/
def squeeze : List Char → List Char
  | [] => []
  | c :: cs =>
    let rest := squeeze cs
    if c = ' ' ∧ (rest = [] ∨ rest.head? = some ' ') then rest else c :: rest

/-- The value of an attribute. Unless it is a text, its blanks only separate words. -/
def attributeValue? (d : Doctype) (script : Script) (isText : Bool) (cs : List Char) :
    Option (List Char) :=
  if d.isBearable cs then
    (d.value? d.reach script cs).map fun value =>
      if isText then value else squeeze (value.dropWhile (· == ' '))
  else none

end Doctype
end Worksheet.Xml
