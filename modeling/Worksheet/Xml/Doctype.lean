import Worksheet.Xml.Entity

/-!
# Document type declarations

The declarations between a document's beginning and its root element are read for the entities and
attributes they declare; those of elements and notations are only checked for their form. Within a
declaration the symbols are names, words, quoted literals and punctuation.
-/

namespace Worksheet.Xml.Doctype

/-! ### Symbols of declarations -/

/-- A symbol of a declaration. Names and closing parentheses may carry an occurrence sign. -/
inductive Token where
  | name (s : String) (sign : Option Char)
  /-- A name with a prefix. -/
  | prefixed (s : String) (sign : Option Char)
  /-- Name characters that are no name. -/
  | word (s : String)
  | literal (cs : List Char)
  | pound (s : String)
  | percent
  | opening
  | closing (sign : Option Char)
  | comma
  | bar
  /-- The beginning of the internal subset. -/
  | bracket
  /-- The end of the declaration. -/
  | stop
deriving Repr, DecidableEq

/-- Whether a character is an occurrence sign. -/
def isSign (c : Char) : Bool := c == '+' || c == '*' || c == '?'

/-- Whether one of the characters, or white space, comes next. -/
def isBefore (allowed : List Char) (cs : List Char) : Bool :=
  cs.head?.any fun c => isSpace c || allowed.contains c

/-- The symbol made of a run of name characters and colons. -/
def nameToken (script : Script) (run : List Char) (sign : Option Char) : Option Token :=
  let s := String.ofList run
  let plain := run.all script.isPart
  let isPrefixed : Bool := match run.dropWhile script.isPart with
    | ':' :: rest => !rest.isEmpty && rest.all script.isPart
    | _ => false
  if !run.head?.any script.isStart then if sign.isSome then none else some (.word s)
  else if plain then some (.name s sign)
  else if isPrefixed then some (.prefixed s sign)
  else if sign.isSome then none else some (.word s)

/-- The symbol at the head of a text, and what is left. -/
def token? (script : Script) : List Char → Option (Token × List Char)
  | [] => none
  | '>' :: cs => some (.stop, cs)
  | '[' :: cs => some (.bracket, cs)
  | '(' :: cs => some (.opening, cs)
  | ',' :: cs => some (.comma, cs)
  | '|' :: cs => some (.bar, cs)
  | ')' :: cs =>
    match cs with
    | c :: rest =>
      if isSign c then some (.closing (some c), rest)
      else if isBefore ['>', ',', '|', ')'] cs then some (.closing none, cs)
      else none
    | [] => none
  | '%' :: cs => if isBefore ['%'] cs then some (.percent, cs) else none
  | '#' :: cs =>
    match name? script cs with
    | some (name, rest) =>
      if isBefore [')', '>', '%', '|'] rest then some (.pound (String.ofList name), rest) else none
    | none => none
  | c :: cs =>
    if c = '"' ∨ c = '\x27' then
      match splitWord? [c] cs with
      | some (value, rest) =>
        if isBefore ['>', '%', '['] rest then some (.literal value, rest) else none
      | none => none
    else
      let isRun (c : Char) : Bool := script.isPart c || c == ':'
      if isRun c then
        let run := c :: cs.takeWhile isRun
        let rest := cs.dropWhile isRun
        match rest with
        | s :: left =>
          if isSign s then (nameToken script run (some s)).map fun t => (t, left)
          else if isBefore ['>', ')', ',', '|', '[', '%'] rest then
            (nameToken script run none).map fun t => (t, rest)
          else none
        | [] => none
      else none

/-- The symbols of a declaration up to its end or to the internal subset, which of both it was, and
what is left. -/
def tokens? (script : Script) (cs : List Char) : Option (List Token × Token × List Char) :=
  match token? script (cs.dropWhile isSpace) with
  | some (token, rest) =>
    if token = .stop ∨ token = .bracket then some ([], token, rest)
    else if rest.length < cs.length then
      (tokens? script rest).map fun (more, last, rest) => (token :: more, last, rest)
    else none
  | none => none
termination_by cs.length

/-! ### Entities -/

/-- Whether a character may stand in a public identifier. -/
def isPublicChar (c : Char) : Bool :=
  c.isAlphanum || c == ' ' || c == '\n' || "-'()+,./:=?;!*#@$_%".toList.contains c

/-- The text of an entity as it is written: references to characters are replaced, those to
entities are kept, and parameters may not be used. -/
def entityText? (script : Script) : List Char → Option (List Char)
  | [] => some []
  | c :: cs =>
    if c = '%' then none
    else if c = '&' then
      match Reference.scan? script cs with
      | some (reference, rest) =>
        if rest.length ≤ cs.length then
          (entityText? script rest).map ((match reference with
            | .char c => [c]
            | .entity name => '&' :: name.toList ++ [';']) ++ ·)
        else none
      | none => none
    else (entityText? script cs).map (c :: ·)
termination_by cs => cs.length

/-- What an entity is declared as, behind its name. -/
inductive Declared where
  | text (cs : List Char)
  | outer
  | unparsed

/-- Reads what an entity is declared as. -/
def declared? : List Token → Option Declared
  | [.literal value] => some (.text value)
  | .name "SYSTEM" none :: .literal _ :: rest => ending rest
  | .name "PUBLIC" none :: .literal id :: .literal _ :: rest =>
    if id.all isPublicChar then ending rest else none
  | _ => none
where
  /-- What may follow an external identifier. -/
  ending : List Token → Option Declared
    | [] => some .outer
    | [.name "NDATA" none, .name _ none] => some .unparsed
    | _ => none

/-- Takes a general entity in. The first declaration of a name counts, and the predefined entities
keep their meaning. -/
def addEntity (d : Doctype) (name : String) (e : Entity) : Doctype :=
  if (predefined? name).isSome ∨ (d.entity? name).isSome then d
  else { d with entities := d.entities ++ [(name, e)] }

/-- Reads the declaration of an entity. Those of parameters are checked and forgotten. -/
def entity (script : Script) (d : Doctype) (tokens : List Token) : Option Doctype :=
  match tokens with
  | .percent :: .name _ none :: rest =>
    match declared? rest with
    | some (.text cs) => if d.counts then (entityText? script cs).map fun _ => d else some d
    | some .outer => some d
    | _ => none
  | .name name none :: rest =>
    match declared? rest with
    | some (.text cs) =>
      if d.counts then (entityText? script cs).map fun text => d.addEntity name (.inner text)
      else some d
    | some _ => some (if d.counts then d.addEntity name .outer else d)
    | none => none
  | _ => none

/-! ### Attributes -/

/-- What is left behind the alternatives of a parenthesis. -/
def alternatives? (isOne : Token → Bool) : List Token → Option (List Token)
  | t :: .closing none :: rest => if isOne t then some rest else none
  | t :: .bar :: rest => if isOne t then alternatives? isOne rest else none
  | _ => none

/-- Whether a symbol may be one of the values of an attribute. -/
def isValue : Token → Bool
  | .name _ none | .prefixed _ none | .word _ => true
  | _ => false

/-- Whether a symbol may be one of the notation names of an attribute. -/
def isPlainName : Token → Bool
  | .name _ none => true
  | _ => false

/-- The type of an attribute: whether it is a text, whether it identifies its element, and what is
left. -/
def attributeType? : List Token → Option (Bool × Bool × List Token)
  | .opening :: rest => (alternatives? isValue rest).map fun rest => (false, false, rest)
  | .name "NOTATION" none :: .opening :: rest =>
    (alternatives? isPlainName rest).map fun rest => (false, false, rest)
  | .name "CDATA" none :: rest => some (true, false, rest)
  | .name "ID" none :: rest => some (false, true, rest)
  | .name type none :: rest =>
    if ["IDREF", "IDREFS", "ENTITY", "ENTITIES", "NMTOKEN", "NMTOKENS"].contains type then
      some (false, false, rest)
    else none
  | _ => none

/-- The value that an attribute has unless told otherwise, if there is one, and what is left. -/
def defaultValue? : List Token → Option (Option (List Char) × List Token)
  | .pound "IMPLIED" :: rest => some (none, rest)
  | .pound "REQUIRED" :: rest => some (none, rest)
  | .pound "FIXED" :: .literal value :: rest => some (some value, rest)
  | .literal value :: rest => some (some value, rest)
  | _ => none

/-- An attribute as it is written in a declaration. -/
structure Written where
  name : String
  isText : Bool
  isId : Bool
  value : Option (List Char)

/-- The name of an element or attribute. -/
def Token.label? : Token → Option String
  | name s none => some s
  | prefixed s none => some s
  | _ => none

/-- The first attribute of a declaration, and what is left. -/
def firstAttribute? : List Token → Option (Written × List Token)
  | [] => none
  | token :: rest => do
    let name ← token.label?
    let (isText, isId, rest) ← attributeType? rest
    let (value, rest) ← defaultValue? rest
    return (⟨name, isText, isId, value⟩, rest)

/-- The attributes of a declaration. -/
def attributes? (tokens : List Token) : Option (List Written) :=
  if tokens = [] then some []
  else
    match firstAttribute? tokens with
    | some (a, rest) =>
      if rest.length < tokens.length then (attributes? rest).map (a :: ·) else none
    | none => none
termination_by tokens.length

/-- Takes the definition of an attribute in. One with a value, or of an identifier, does not count
behind another of the same attribute. -/
def addDefinition (d : Doctype) (element : String) (isId : Bool) (definition : Definition) :
    Doctype :=
  let isKnown := d.definitions.any fun (e, a) => e == element && a.name == definition.name
  if (definition.value.isSome || isId) && isKnown then d
  else { d with definitions := d.definitions ++ [(element, definition)] }

/-- Takes an attribute of an element in. Its value is expanded with the entities known so far. -/
def addAttribute (script : Script) (element : String) (d : Doctype) (a : Written) :
    Option Doctype :=
  if d.counts then
    match a.value with
    | some cs =>
      (d.attributeValue? script a.isText cs).map fun value =>
        d.addDefinition element a.isId ⟨a.name, a.isText, some value⟩
    | none => some (d.addDefinition element a.isId ⟨a.name, a.isText, none⟩)
  else some d

/-- Reads the declaration of attributes. -/
def attributeList (script : Script) (d : Doctype) (tokens : List Token) : Option Doctype := do
  let element ← tokens.head?.bind Token.label?
  let written ← attributes? tokens.tail
  written.foldlM (addAttribute script element) d

/-! ### Elements and notations -/

/-- Checks what may follow `#PCDATA` in a content model. -/
def mixedModel : List Token → Bool
  | [.closing (some '*')] => true
  | .bar :: .name _ none :: rest => mixedModel rest
  | .bar :: .prefixed _ none :: rest => mixedModel rest
  | _ => false

/-- Checks a content model within open parentheses. Each of them holds the separator that was used
in it; `wanted` tells whether an item must come next. -/
def groupModel : List (Option Token) → Bool → List Token → Bool
  | groups, true, .opening :: rest => groupModel (none :: groups) true rest
  | groups, true, .name _ _ :: rest => groupModel groups false rest
  | groups, true, .prefixed _ _ :: rest => groupModel groups false rest
  | [_], false, [.closing _] => true
  | _ :: groups, false, .closing _ :: rest => groupModel groups false rest
  | g :: groups, false, .comma :: rest =>
    g != some .bar && groupModel (some .comma :: groups) true rest
  | g :: groups, false, .bar :: rest =>
    g != some .comma && groupModel (some .bar :: groups) true rest
  | _, _, _ => false

/-- Checks what the content of an element is declared as. -/
def contentModel : List Token → Bool
  | [.name "EMPTY" none] => true
  | [.name "ANY" none] => true
  | [.opening, .pound "PCDATA", .closing none] => true
  | .opening :: .pound "PCDATA" :: rest => mixedModel rest
  | .opening :: rest => groupModel [none] true rest
  | _ => false

/-- Checks the declaration of an element. -/
def elementType : List Token → Bool
  | .name _ none :: rest => contentModel rest
  | .prefixed _ none :: rest => contentModel rest
  | _ => false

/-- Checks the declaration of a notation. -/
def notationName : List Token → Bool
  | [.name _ none, .name "SYSTEM" none, .literal _] => true
  | [.name _ none, .name "PUBLIC" none, .literal id] => id.all isPublicChar
  | [.name _ none, .name "PUBLIC" none, .literal id, .literal _] => id.all isPublicChar
  | _ => false

/-! ### The internal subset -/

/-- The text behind a word that white space follows. -/
def behind? (word : String) (cs : List Char) : Option (List Char) :=
  match afterWord? word.toList cs with
  | some rest => if rest.head?.any isSpace then some rest else none
  | none => none

/-- Reads the symbols of a declaration by the given function. -/
def declaration (script : Script) (read : List Token → Option Doctype) (cs : List Char) :
    Option (Doctype × List Char) :=
  match tokens? script cs with
  | some (tokens, .stop, rest) => (read tokens).map fun d => (d, rest)
  | _ => none

/-- Reads the declaration, comment, instruction or reference at the head of a text. -/
def item? (script : Script) (d : Doctype) (cs : List Char) : Option (Doctype × List Char) :=
  let check (form : List Token → Bool) (tokens : List Token) : Option Doctype :=
    if form tokens then some d else none
  match cs with
  | '%' :: cs =>
    match name? script cs with
    | some (_, ';' :: rest) =>
      some ({ d with hasOuterParts := true, counts := d.standalone }, rest)
    | _ => none
  | '<' :: '?' :: cs => (instruction? script cs).map fun rest => (d, rest)
  | '<' :: '!' :: '-' :: '-' :: cs => (comment? cs).map fun rest => (d, rest)
  | '<' :: '!' :: cs =>
    match behind? "ENTITY" cs with
    | some cs => declaration script (entity script d) cs
    | none =>
      match behind? "ATTLIST" cs with
      | some cs => declaration script (attributeList script d) cs
      | none =>
        match behind? "ELEMENT" cs with
        | some cs => declaration script (check elementType) cs
        | none =>
          match behind? "NOTATION" cs with
          | some cs => declaration script (check notationName) cs
          | none => none
  | _ => none

/-- Reads the internal subset up to its closing bracket. -/
def subset? (script : Script) (d : Doctype) (cs : List Char) : Option (Doctype × List Char) :=
  match cs.dropWhile isSpace with
  | ']' :: rest => some (d, rest)
  | start =>
    match item? script d start with
    | some (d, rest) => if rest.length < cs.length then subset? script d rest else none
    | none => none
termination_by cs.length

/-- The external identifier of the declaration: whether there is one. -/
def external? : List Token → Option Bool
  | [] => some false
  | [.name "SYSTEM" none, .literal _] => some true
  | [.name "PUBLIC" none, .literal id, .literal _] =>
    if id.all isPublicChar then some true else none
  | _ => none

/-- The name of the root element and the external identifier. -/
def header? : List Token → Option Bool
  | .name _ none :: rest => external? rest
  | .prefixed _ none :: rest => external? rest
  | _ => none

/-- Reads a document type declaration behind its keyword. -/
def read? (script : Script) (standalone : Bool) (cs : List Char) : Option (Doctype × List Char) :=
  match tokens? script cs with
  | some (tokens, last, rest) =>
    match header? tokens with
    | some isOuter =>
      let d := { initial standalone with hasOuterParts := isOuter }
      if last = .stop then some (d, rest)
      else
        match subset? script d rest with
        | some (d, rest) =>
          match rest.dropWhile isSpace with
          | '>' :: rest => some (d, rest)
          | _ => none
        | none => none
    | none => none
  | none => none

end Worksheet.Xml.Doctype
