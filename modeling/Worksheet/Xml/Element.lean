/-!
# Elements

A document as far as it matters here: each element has a tag, attributes, the character data before
its first child, and children. Tags and attribute names that belong to a namespace begin with the
name of the namespace in braces.
-/

namespace Worksheet.Xml

/-- An element of a document. -/
inductive Element where
  | mk (tag : String) (attributes : List (String × String)) (text : String)
    (children : List Element)

namespace Element

/-- The tag. -/
def tag : Element → String
  | mk tag _ _ _ => tag

/-- The attributes. -/
def attributes : Element → List (String × String)
  | mk _ attributes _ _ => attributes

/-- The character data before the first child. -/
def text : Element → String
  | mk _ _ text _ => text

/-- The children, in order. -/
def children : Element → List Element
  | mk _ _ _ children => children

/-- The value of an attribute. -/
def valueOf? (e : Element) (name : String) : Option String := e.attributes.lookup name

/-- The text of the first child with the given tag. -/
def childText? (e : Element) (tag : String) : Option String :=
  (e.children.find? fun child => child.tag == tag).map Element.text

mutual

/-- The element and all elements in it that have the given tag, each before those in it. -/
def withTag (tag : String) : Element → List Element
  | mk own attributes text children =>
    (if own = tag then [mk own attributes text children] else []) ++ allWithTag tag children

/-- The elements with the given tag in a row of elements. -/
def allWithTag (tag : String) : List Element → List Element
  | [] => []
  | e :: rest => withTag tag e ++ allWithTag tag rest

end

end Element
end Worksheet.Xml
