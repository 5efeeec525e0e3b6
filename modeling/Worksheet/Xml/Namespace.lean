import Worksheet.Xml.Entity

/-!
# Namespaces

A name with a prefix belongs to the namespace that the prefix is bound to, and the name of an
element without prefix to the default namespace, if there is one. The attributes of a start tag bind
prefixes for its element and all in it.
-/

namespace Worksheet.Xml

/-- What prefixes are bound to, the innermost binding first. The default namespace stands under the
empty prefix; where it has been taken back it is the empty text. -/
abbrev Scope := List (String × String)

namespace Scope

/-- The namespace of the prefix `xml`. -/
def xmlSpace : String := "http:" ++ "//www.w3.org/XML/1998/namespace"

/-- The namespace of the prefix `xmlns`. -/
def bindingSpace : String := "http:" ++ "//www.w3.org/2000/xmlns/"

/-- The bindings outside of all elements. -/
def initial : Scope := [("xml", xmlSpace)]

/-- A name that belongs to a namespace. -/
def expand (space name : String) : String := "\x7b" ++ space ++ "\x7d" ++ name

/-- The prefix of a name and the name behind it. -/
def split (name : String) : Option (String × String) :=
  match splitWord? [':'] name.toList with
  | some (before, behind) => some (String.ofList before, String.ofList behind)
  | none => none

/-- The prefix that an attribute binds, if it is a binding. -/
def bound? (name : String) : Option String :=
  if name = "xmlns" then some ""
  else match split name with
    | some ("xmlns", space) => some space
    | _ => none

/-- Whether a prefix may be bound to a namespace. Only the default namespace can be taken back; the
two reserved namespaces have prefixes of their own; and a closing brace would make the names of the
namespace ambiguous. -/
def isAllowed (label space : String) : Bool :=
  !(space.isEmpty && !label.isEmpty) && label != "xmlns" && !space.contains '\x7d'
    && (label == "xml") == (space == xmlSpace) && space != bindingSpace

/-- Takes the bindings among the attributes of a start tag in. -/
def bind? (scope : Scope) (attributes : List (String × String)) : Option Scope :=
  attributes.foldlM (fun scope (name, value) =>
    match bound? name with
    | some label => if isAllowed label value then some ((label, value) :: scope) else none
    | none => some scope) scope

/-- The tag of an element. -/
def tag? (scope : Scope) (name : String) : Option String :=
  match split name with
  | some (label, rest) => (scope.lookup label).map fun space => expand space rest
  | none =>
    match scope.lookup "" with
    | some space => some (if space.isEmpty then name else expand space name)
    | none => some name

/-- The name of an attribute. -/
def attributeName? (scope : Scope) (name : String) : Option String :=
  match split name with
  | some (label, rest) => (scope.lookup label).map fun space => expand space rest
  | none => some name

end Scope

/-- Whether no name occurs twice. -/
def areDistinct : List String → Bool
  | [] => true
  | name :: rest => !rest.contains name && areDistinct rest

namespace Doctype

/-- The attributes of a start tag, given and declared, with their values. -/
def attributesOf (d : Doctype) (script : Script) (tag : Tag) : Option (List (String × String)) := do
  if !areDistinct (tag.attributes.map Prod.fst) then none
  let declared := (d.definitions.filter fun (element, _) => element == tag.name).map Prod.snd
  let given ← tag.attributes.mapM fun (name, cs) => do
    let isText := ((declared.find? fun a => a.name == name).map Definition.isText).getD true
    let value ← d.attributeValue? script isText cs
    return (name, String.ofList value)
  let added := declared.filterMap fun a =>
    if (given.lookup a.name).isSome then none
    else a.value.map fun value => (a.name, String.ofList value)
  return given ++ added

end Doctype

/-- The bindings, tag and attributes of an element, from its start tag. -/
def Scope.enter? (scope : Scope) (name : String) (attributes : List (String × String)) :
    Option (Scope × String × List (String × String)) := do
  let scope ← scope.bind? attributes
  let tag ← scope.tag? name
  let named ← (attributes.filter fun (name, _) => (bound? name).isNone).mapM fun (name, value) => do
    let name ← scope.attributeName? name
    return (name, value)
  if !areDistinct (named.map Prod.fst) then none
  return (scope, tag, named)

end Worksheet.Xml
