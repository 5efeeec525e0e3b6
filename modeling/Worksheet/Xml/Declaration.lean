import Worksheet.Xml.Char

/-!
# XML declarations

A document may begin with a declaration that gives its version, names its encoding and says whether
it stands alone, in this order. Only the version must be given.
-/

namespace Worksheet.Xml

/-- What is left of a text after a word at its head. -/
def afterWord? : List Char → List Char → Option (List Char)
  | [], cs => some cs
  | _ :: _, [] => none
  | w :: word, c :: cs => if c = w then afterWord? word cs else none

/-- The text before the first occurrence of a word, and what is left after it. -/
def splitWord? (word : List Char) : List Char → Option (List Char × List Char)
  | [] => if word = [] then some ([], []) else none
  | c :: cs =>
    match afterWord? word (c :: cs) with
    | some rest => some ([], rest)
    | none => (splitWord? word cs).map fun (before, rest) => (c :: before, rest)

/-- What a declaration says. -/
structure Declaration where
  encoding : Option (List Char)
  standalone : Bool
deriving Repr, DecidableEq

namespace Declaration

/-- A name and a quoted value. -/
structure Item where
  name : List Char
  value : List Char
deriving Repr, DecidableEq

/-- Whether a character may stand in a quoted value. -/
def isValueChar (c : Char) : Bool := c.isAlphanum || c == '.' || c == '-' || c == '_'

/-- The quoted value at the head of a text, and what is left. -/
def value? : List Char → Option (List Char × List Char)
  | [] => none
  | quote :: cs =>
    if quote = '"' ∨ quote = '\x27' then
      match cs.dropWhile isValueChar with
      | c :: rest => if c = quote then some (cs.takeWhile isValueChar, rest) else none
      | [] => none
    else none

/-- The item at the head of a text, after white space, and what is left; no item at the end of the
text. -/
def item? : List Char → Option (Option Item × List Char)
  | [] => some (none, [])
  | c :: cs =>
    if !isSpace c then none
    else
      let start := cs.dropWhile isSpace
      if start = [] then some (none, [])
      else
        let isNameChar (c : Char) : Bool := !isSpace c && c != '='
        match (start.dropWhile isNameChar).dropWhile isSpace with
        | '=' :: rest =>
          (value? (rest.dropWhile isSpace)).map fun (value, rest) =>
            (some ⟨start.takeWhile isNameChar, value⟩, rest)
        | _ => none

/-- The end of a declaration: `standalone` or nothing more. -/
def parseEnd (encoding : Option (List Char)) : Option Item × List Char → Option Declaration
  | (none, _) => some ⟨encoding, false⟩
  | (some item, rest) =>
    if item.name = "standalone".toList ∧ rest.all isSpace then
      if item.value = "yes".toList then some ⟨encoding, true⟩
      else if item.value = "no".toList then some ⟨encoding, false⟩
      else none
    else none

/-- Reads what stands between `<?xml` and `?>`. -/
def parse? (body : List Char) : Option Declaration :=
  match item? body with
  | some (some version, rest) =>
    if version.name = "version".toList then
      match item? rest with
      | some (some item, rest) =>
        if item.name = "encoding".toList then
          if item.value.head?.any Char.isAlpha then
            (item? rest).bind (parseEnd (some item.value))
          else none
        else parseEnd none (some item, rest)
      | some (none, _) => some ⟨none, false⟩
      | none => none
    else none
  | _ => none

/-- The declaration at the head of a text, if there is one, and what is left. A text that begins
like a declaration and does not go on like one is refused. -/
def scan? (cs : List Char) : Option (Option Declaration × List Char) :=
  match afterWord? "<?xml".toList cs with
  | some rest =>
    if rest.head?.any (fun c => isSpace c || c == '?') then
      match splitWord? "?>".toList rest with
      | some (body, rest) => (parse? body).map fun d => (some d, rest)
      | none => none
    else some (none, cs)
  | none => some (none, cs)

end Declaration
end Worksheet.Xml
