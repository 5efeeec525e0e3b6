import Worksheet.Xml.Declaration
import Worksheet.Xml.Name

/-!
# Markup

The content of a document is cut into pieces: tags, references, character data, and what carries no
data. `pieces` cuts a text from its beginning to its end, or refuses it if some piece of markup is
not well formed; how tags nest and what references stand for is left open.
-/

namespace Worksheet.Xml

/-! ### Names -/

/-- The name without colon at the head of a text, and what is left. -/
def name? (script : Script) : List Char → Option (List Char × List Char)
  | [] => none
  | c :: cs =>
    if script.isStart c then some (c :: cs.takeWhile script.isPart, cs.dropWhile script.isPart)
    else none

/-- The name at the head of a text, with a prefix and a colon before it or without, and what is
left. -/
def qualifiedName? (script : Script) (cs : List Char) : Option (List Char × List Char) :=
  match name? script cs with
  | some (first, ':' :: rest) =>
    (name? script rest).map fun (second, rest) => (first ++ ':' :: second, rest)
  | found => found

/-! ### References -/

/-- What a reference names: a character by its number, or an entity. -/
inductive Reference where
  | char (c : Char)
  | entity (name : String)
deriving Repr, DecidableEq

namespace Reference

/-- The value of a hexadecimal digit. -/
def hexDigit? (c : Char) : Option Nat :=
  if c.isDigit then some (c.toNat - 0x30)
  else if 'a' ≤ c ∧ c ≤ 'f' then some (c.toNat - 0x57)
  else if 'A' ≤ c ∧ c ≤ 'F' then some (c.toNat - 0x37)
  else none

/-- The character of a number, if a document may hold it. -/
def charOf? (n : Nat) : Option Char :=
  if n.isValidChar then
    let c := Char.ofNat n
    if isChar c then some c else none
  else none

/-- The character whose number is written in digits of the given base, up to the semicolon. -/
def number? (base : Nat) (digit? : Char → Option Nat) (cs : List Char) :
    Option (Reference × List Char) :=
  let isDigit (c : Char) : Bool := (digit? c).isSome
  match cs.takeWhile isDigit, cs.dropWhile isDigit with
  | d :: ds, ';' :: rest =>
    (charOf? ((d :: ds).foldl (fun n c => base * n + (digit? c).getD 0) 0)).map fun c =>
      (.char c, rest)
  | _, _ => none

/-- The value of a decimal digit. -/
def decimalDigit? (c : Char) : Option Nat := if c.isDigit then some (c.toNat - 0x30) else none

/-- The reference behind an ampersand, and what is left. -/
def scan? (script : Script) : List Char → Option (Reference × List Char)
  | '#' :: 'x' :: cs => number? 16 hexDigit? cs
  | '#' :: cs => number? 10 decimalDigit? cs
  | cs =>
    match name? script cs with
    | some (name, ';' :: rest) => some (.entity (String.ofList name), rest)
    | _ => none

end Reference

/-- The character that an entity stands for without being declared. -/
def predefined? : String → Option Char
  | "lt" => some '<'
  | "gt" => some '>'
  | "amp" => some '&'
  | "apos" => some '\x27'
  | "quot" => some '"'
  | _ => none

/-! ### Pieces -/

/-- A start tag: the name of the element and the attributes as they are written. -/
structure Tag where
  name : String
  attributes : List (String × List Char)
deriving Repr, DecidableEq

/-- A piece of content. -/
inductive Piece where
  /-- Characters as they stand in the document. -/
  | text (cs : List Char)
  /-- Characters of a marked section, or named by a number. -/
  | data (cs : List Char)
  | entity (name : String)
  | opening (tag : Tag)
  /-- A tag that is start and end of its element. -/
  | single (tag : Tag)
  | closing (name : String)
  /-- A comment or a processing instruction. -/
  | aside
deriving Repr, DecidableEq

/-- The quoted text at the head of a text, and what is left. -/
def quotedText? : List Char → Option (List Char × List Char)
  | [] => none
  | q :: cs => if q = '"' ∨ q = '\x27' then splitWord? [q] cs else none

/-- The attributes behind the name of an element or behind another attribute, with the end of the
tag, which tells whether it is also the end of its element, and what is left. -/
def attributes? (script : Script) (cs : List Char) :
    Option (List (String × List Char) × Bool × List Char) :=
  match cs.dropWhile isSpace with
  | '>' :: rest => some ([], false, rest)
  | '/' :: '>' :: rest => some ([], true, rest)
  | start =>
    if start.length < cs.length then
      match qualifiedName? script start with
      | some (name, rest) =>
        match rest.dropWhile isSpace with
        | '=' :: rest =>
          match quotedText? (rest.dropWhile isSpace) with
          | some (value, rest) =>
            if '<' ∈ value then none
            else if rest.length < cs.length then
              (attributes? script rest).map fun (more, single, rest) =>
                ((String.ofList name, value) :: more, single, rest)
            else none
          | none => none
        | _ => none
      | none => none
    else none
termination_by cs.length

/-- The start tag behind its opening bracket, and what is left. -/
def startTag? (script : Script) (cs : List Char) : Option (Piece × List Char) :=
  match qualifiedName? script cs with
  | some (name, rest) =>
    (attributes? script rest).map fun (attributes, single, rest) =>
      let tag : Tag := ⟨String.ofList name, attributes⟩
      (if single then .single tag else .opening tag, rest)
  | none => none

/-- The end tag behind its opening bracket and slash, and what is left. -/
def endTag? (script : Script) (cs : List Char) : Option (Piece × List Char) :=
  match qualifiedName? script cs with
  | some (name, rest) =>
    match rest.dropWhile isSpace with
    | '>' :: rest => some (.closing (String.ofList name), rest)
    | _ => none
  | none => none

/-- What is left behind the comment whose opening was read. Two hyphens only end a comment. -/
def comment? (cs : List Char) : Option (List Char) :=
  match splitWord? ['-', '-'] cs with
  | some (_, '>' :: rest) => some rest
  | _ => none

/-- What is left behind the processing instruction whose opening was read. Its target may not be
`xml` in any case of letters. -/
def instruction? (script : Script) (cs : List Char) : Option (List Char) :=
  match name? script cs with
  | some (target, rest) =>
    if target.map Char.toLower = ['x', 'm', 'l'] then none
    else if rest.head?.any isSpace then (splitWord? ['?', '>'] rest).map Prod.snd
    else afterWord? ['?', '>'] rest
  | none => none

/-- The piece behind an opening bracket, and what is left. -/
def bracketed? (script : Script) : List Char → Option (Piece × List Char)
  | '/' :: cs => endTag? script cs
  | '?' :: cs => (instruction? script cs).map fun rest => (.aside, rest)
  | '!' :: '-' :: '-' :: cs => (comment? cs).map fun rest => (.aside, rest)
  | '!' :: cs =>
    match afterWord? "[CDATA[".toList cs with
    | some cs => (splitWord? "]]>".toList cs).map fun (data, rest) => (.data data, rest)
    | none => none
  | cs => startTag? script cs

/-- Whether a character is neither the beginning of markup nor of a reference. -/
def isPlain (c : Char) : Bool := c != '<' && c != '&'

/-- The piece that begins with `c`, and what is left. The end of a marked section may not stand in
character data. -/
def piece? (script : Script) (c : Char) (cs : List Char) : Option (Piece × List Char) :=
  if c = '<' then bracketed? script cs
  else if c = '&' then
    (Reference.scan? script cs).map fun (reference, rest) =>
      (match reference with
        | .char c => .data [c]
        | .entity name => .entity name, rest)
  else
    let run := c :: cs.takeWhile isPlain
    if (splitWord? "]]>".toList run).isSome then none else some (.text run, cs.dropWhile isPlain)

/-- The pieces of a text. -/
def pieces? (script : Script) : List Char → Option (List Piece)
  | [] => some []
  | c :: cs =>
    match piece? script c cs with
    | some (piece, rest) =>
      if rest.length ≤ cs.length then (pieces? script rest).map (piece :: ·) else none
    | none => none
termination_by cs => cs.length

end Worksheet.Xml
