import Worksheet.Xml.Doctype
import Worksheet.Xml.Element
import Worksheet.Xml.Namespace
import Worksheet.Xml.Source

/-!
# Documents

A document is a prolog, one root element, and behind it nothing but comments, processing
instructions and white space. `read` gives the root element of a document, or why there is none.

The pieces of the content are taken one after the other. The elements that are open are kept with
what has been read of them, the innermost first; the text of an entity must close the elements it
opens, and no others.
-/

namespace Worksheet.Xml

/-- An element whose end has not been reached. -/
structure Open where
  /-- The name as it is written. -/
  name : String
  scope : Scope
  tag : String
  attributes : List (String × String)
  /-- The character data before the first child, its last character first. -/
  text : List Char
  /-- The children, the last one first. -/
  children : List Element

/-- The element, once its end has been reached. -/
def Open.close (o : Open) : Element :=
  .mk o.tag o.attributes (String.ofList o.text.reverse) o.children.reverse

/-- What has been read of a document. -/
structure Growth where
  /-- The open elements, the innermost first. -/
  path : List Open
  root : Option Element

namespace Growth

/-- Nothing has been read. -/
def initial : Growth := ⟨[], none⟩

/-- The bindings of prefixes at this point. -/
def scope (g : Growth) : Scope := (g.path.head?.map Open.scope).getD Scope.initial

/-- Takes character data of the innermost element in. -/
def addText (g : Growth) (cs : List Char) : Option Growth :=
  match g.path with
  | [] => none
  | o :: path =>
    if o.children.isEmpty then
      some { g with path := { o with text := cs.reverse ++ o.text } :: path }
    else some g

/-- Takes a closed element in. -/
def addElement (g : Growth) (e : Element) : Growth :=
  match g.path with
  | [] => { g with root := some e }
  | o :: path => { g with path := { o with children := e :: o.children } :: path }

/-- The element that a start tag opens. -/
def open? (d : Doctype) (script : Script) (g : Growth) (tag : Tag) : Option Open :=
  if g.path.isEmpty && g.root.isSome then none
  else do
    let attributes ← d.attributesOf script tag
    let (scope, name, attributes) ← g.scope.enter? tag.name attributes
    return ⟨tag.name, scope, name, attributes, [], []⟩

/-- Closes the innermost element, if it has that name and stands above the first `floor`. -/
def close? (floor : Nat) (g : Growth) (name : String) : Option Growth :=
  match g.path with
  | [] => none
  | o :: path =>
    if o.name = name ∧ floor < g.path.length then some (addElement { g with path } o.close)
    else none

/-- Takes a piece in, where `expand` takes in what a declared entity stands for. -/
def step (d : Doctype) (script : Script) (floor : Nat)
    (expand : Growth → String → Option Growth) (g : Growth) : Piece → Option Growth
  | .aside => some g
  | .text cs => if g.path.isEmpty then if cs.all isSpace then some g else none else g.addText cs
  | .data cs => g.addText cs
  | .entity name =>
    match predefined? name with
    | some c => g.addText [c]
    | none => if g.path.isEmpty then none else expand g name
  | .opening tag => (open? d script g tag).map fun o => { g with path := o :: g.path }
  | .single tag => (open? d script g tag).map fun o => g.addElement o.close
  | .closing name => close? floor g name

/-- Takes pieces in, with entities open to the given depth. -/
def run (d : Doctype) : Nat → Script → Nat → Growth → List Piece → Option Growth
  | depth, script, floor, g, pieces =>
    let expand (g : Growth) (name : String) : Option Growth :=
      match d.entity? name with
      | some (.inner text) =>
        match depth with
        | 0 => none
        | depth + 1 =>
          match pieces? .plain (unifyLines text) with
          | some pieces =>
            match run d depth .plain g.path.length g pieces with
            | some after => if after.path.length = g.path.length then some after else none
            | none => none
          | none => none
      | _ => none
    pieces.foldlM (step d script floor expand) g

end Growth

/-- Reads what stands before the root element. At most one document type declaration is among it. -/
def prolog? (script : Script) (standalone : Bool) (found : Option Doctype) (cs : List Char) :
    Option (Doctype × List Char) :=
  match cs.dropWhile isSpace with
  | '<' :: '?' :: start =>
    match instruction? script start with
    | some rest =>
      if rest.length < cs.length then prolog? script standalone found rest else none
    | none => none
  | '<' :: '!' :: '-' :: '-' :: start =>
    match comment? start with
    | some rest =>
      if rest.length < cs.length then prolog? script standalone found rest else none
    | none => none
  | '<' :: '!' :: start =>
    if found.isSome then none
    else
      match Doctype.behind? "DOCTYPE" start with
      | some start =>
        match Doctype.read? script standalone start with
        | some (d, rest) =>
          if rest.length < cs.length then prolog? script standalone (some d) rest else none
        | none => none
      | none => none
  | rest => some (found.getD (.initial standalone), rest)
termination_by cs.length

/-- The root element of a document whose text is known. -/
def root? (source : Source) : Option Element := do
  let (d, content) ← prolog? source.script source.standalone none source.chars
  if !d.isBearable content then none
  let pieces ← pieces? source.script content
  let g ← Growth.run d d.reach source.script 0 .initial pieces
  if g.path.isEmpty then g.root else none

/-- The root element of a document. -/
def read (bytes : List UInt8) : Except Fault Element := do
  let source ← Source.read bytes
  match root? source with
  | some e => return e
  | none => throw .malformed

end Worksheet.Xml
