import Worksheet.Sheet.Saved
import Worksheet.Xml.Document

/-!
# Files of sheets

A saved sheet is written as an XML document: the version is an attribute of the root element, and
each cell is an element that holds its name and its contents. `render` writes the document, `write`
refuses what no document can hold, and `read` reads any document that has the necessary elements,
whatever else it holds.
-/

namespace Worksheet

/-- Where a text stands in a saved sheet. -/
inductive Place where
  | version
  | name (name : String)
  | contents (name : String)
deriving Repr, DecidableEq

/-- The wording of the place. -/
def Place.text : Place → String
  | version => "the version tag"
  | name n => "cell name " ++ Text.quoted n
  | contents n => "cell " ++ Text.quoted n

/-- A character that no document can hold, and where it stands. -/
structure Unstorable where
  character : Char
  place : Place
deriving Repr, DecidableEq

/-- The wording of the refusal. -/
def Unstorable.message (u : Unstorable) : String :=
  "Cannot store character " ++ Text.quoted (String.singleton u.character) ++ " of " ++ u.place.text
    ++ " in XML"

/-- Why no saved sheet is read from a file: its name cannot be that of a file, it cannot be opened, or
its document is not that of a saved sheet. -/
inductive ReadFault where
  | nullInName
  | missingFile
  | unreadable (fault : Xml.Fault)
  | wrongRoot (tag : String)
  | missingVersion
  | missingName
  | missingContents (name : String)
deriving Repr, DecidableEq

/-- The wording of the fault. -/
def ReadFault.message : ReadFault → String
  | nullInName => "embedded null byte"
  | missingFile => "Cannot read"
  | unreadable _ => "Cannot read"
  | wrongRoot tag => "Expected <spreadsheet> root, found <" ++ tag ++ ">"
  | missingVersion => "Missing version attribute"
  | missingName => "Cell without <name>"
  | missingContents name => "Cell " ++ Text.quoted name ++ " without <contents>"

/-- Whether the fault is reported as one of reading. A null character in a name, and what is wrong with
the encoding that a document names, are reported as they are. -/
def ReadFault.ofReading : ReadFault → Bool
  | nullInName => false
  | unreadable (.encoding _) => false
  | _ => true

namespace Saved

/-! ### Writing -/

/-- How a character is written in the text of an element. -/
def escapeText (c : Char) : List Char :=
  if c = '&' then "&amp;".toList
  else if c = '<' then "&lt;".toList
  else if c = '>' then "&gt;".toList
  else if c = '\r' then "&#13;".toList
  else [c]

/-- How a character is written in the value of an attribute. -/
def escapeValue (c : Char) : List Char :=
  if c = '"' then "&quot;".toList
  else if c = '\n' then "&#10;".toList
  else if c = '\t' then "&#09;".toList
  else escapeText c

/-- An element that holds a text. -/
def renderText (tag : String) (text : String) : List Char :=
  if text.isEmpty then '<' :: tag.toList ++ " />".toList
  else
    '<' :: tag.toList ++ '>' :: text.toList.flatMap escapeText ++ '<' :: '/' :: tag.toList ++ ['>']

/-- The element of a cell, on lines of its own. -/
def renderCell (name contents : String) : List Char :=
  "  <cell>\n    ".toList ++ renderText "name" name ++ "\n    ".toList
    ++ renderText "contents" contents ++ "\n  </cell>\n".toList

/-- The document of a saved sheet. -/
def render (saved : Saved String) : String :=
  let opening := "<?xml version='1.0' encoding='utf-8'?>\n<spreadsheet version=\"".toList
    ++ saved.version.toList.flatMap escapeValue ++ ['"']
  String.ofList <|
    if saved.cells.isEmpty then opening ++ " />".toList
    else opening ++ ">\n".toList
      ++ saved.cells.flatMap (fun (name, contents) => renderCell name contents)
      ++ "</spreadsheet>".toList

/-- Refuses a text with a character that no document can hold. -/
def checkText (place : Place) (text : String) : Except Unstorable Unit :=
  match text.toList.find? (!Xml.isChar ·) with
  | some c => .error ⟨c, place⟩
  | none => .ok ()

/-- Refuses a saved sheet with a character that no document can hold. -/
def check (saved : Saved String) : Except Unstorable Unit := do
  checkText .version saved.version
  saved.cells.forM fun (name, contents) => do
    checkText (.name name) name
    checkText (.contents name) contents

/-- The document of a saved sheet, or the first character that it cannot hold. -/
def write (saved : Saved String) : Except Unstorable String := do
  saved.check
  return saved.render

/-! ### Reading -/

/-- The name and the contents of a cell. -/
def ofCell (e : Xml.Element) : Except ReadFault (String × String) :=
  match e.childText? "name" with
  | none => .error .missingName
  | some name =>
    match e.childText? "contents" with
    | none => .error (.missingContents name)
    | some contents => .ok (name, contents)

/-- The saved sheet of a root element. -/
def ofElement (root : Xml.Element) : Except ReadFault (Saved String) :=
  if root.tag = "spreadsheet" then
    match root.valueOf? "version" with
    | none => .error .missingVersion
    | some version => do
      let cells ← (root.withTag "cell").mapM ofCell
      return ⟨version, cells⟩
  else .error (.wrongRoot root.tag)

/-- The saved sheet of the bytes of a document. -/
def read (bytes : List UInt8) : Except ReadFault (Saved String) :=
  match Xml.read bytes with
  | .ok root => ofElement root
  | .error fault => .error (.unreadable fault)

end Saved
end Worksheet
