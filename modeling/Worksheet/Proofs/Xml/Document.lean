import Worksheet.Proofs.Xml.Growth

/-!
# Documents with one attribute

What is read of a document that consists of a root element with a single attribute, on a line of its
own behind the declaration.

* `IsRoot`: what the start tag of the root element needs to be read as it was written.
* `root?_element`: a root element between its tags.
* `root?_single`: a root element without contents.
-/

namespace Worksheet.Xml

open Worksheet.Text (Stops stops_nil stops_cons)

variable {tag name read : String} {value : List Char}

/-! ### Names without namespaces

An attribute may bind a prefix or have one. Without either, it is kept under its name, and the scope
of the element is that around it.
-/

/-- A name that binds no prefix, and has none itself. -/
def IsFree (name : String) : Prop := Scope.bound? name = none ∧ IsLocal name

/-- One attribute of this kind is entered as it is. -/
theorem enter?_single (htag : IsLocal tag) (hname : IsFree name) (read : String) :
    Scope.enter? .initial tag [(name, read)] = some (.initial, tag, [(name, read)]) := by
  have hbind : Scope.bind? .initial [(name, read)] = some .initial := by
    simp only [Scope.bind?, List.foldlM_cons, hname.1]
    rfl
  have htag : Scope.tag? .initial tag = some tag := by
    rw [Scope.tag?, htag]
    rfl
  have hattribute : Scope.attributeName? .initial name = some name := by
    rw [Scope.attributeName?, hname.2]
  unfold Scope.enter?
  rw [hbind]
  simp only [Option.bind_eq_bind, Option.bind_some, htag, List.filter_cons, hname.1,
    Option.isNone_none, if_true, List.filter_nil, List.mapM_cons, hattribute]
  rfl

/-! ### The start tag

The root element stands first in its document, so its start tag is read in the state before any
piece.
-/

/-- The start tag of a root element, up to its end. -/
def rootTag (tag name : String) (value : List Char) : List Char :=
  '<' :: (tag.toList ++ ' ' :: (name.toList ++ '=' :: '"' :: (value ++ ['"'])))

/-- A start tag with an attribute that is written as `value` and read as `read`. -/
structure IsRoot (tag name : String) (value : List Char) (read : String) : Prop where
  tag_isTag : IsTag tag
  name_isName : isName .plain name.toList = true
  name_isFree : IsFree name
  noQuote : '"' ∉ value
  noBracket : '<' ∉ value
  value_eq : noDoctype.attributeValue? .plain true value = some read.toList

/-- The root element, once its start tag has been read. -/
def Open.root (tag name read : String) : Open := ⟨tag, .initial, tag, [(name, read)], [], []⟩

namespace IsRoot

theorem attributesOf (h : IsRoot tag name value read) :
    noDoctype.attributesOf .plain ⟨tag, [(name, value)]⟩ = some [(name, read)] := by
  unfold Doctype.attributesOf
  show ((noDoctype.attributeValue? .plain true value >>= fun value =>
    some (name, String.ofList value)) >>= _) >>= _ = _
  rw [h.value_eq]
  show some [(name, String.ofList read.toList)] = _
  rw [String.ofList_toList]

/-- The tag opens the root element. -/
theorem open? (h : IsRoot tag name value read) :
    Growth.open? noDoctype .plain .initial ⟨tag, [(name, value)]⟩
      = some (.root tag name read) := by
  have hscope : Growth.scope .initial = .initial := rfl
  unfold Growth.open?
  rw [h.attributesOf, hscope, if_neg (by simp [Growth.initial])]
  simp only [Option.bind_eq_bind, Option.bind_some, enter?_single h.tag_isTag.isLocal h.name_isFree]
  rfl

/-- The start tag is the first piece, whichever way it ends. -/
theorem pieces? (h : IsRoot tag name value read) (ending : List Char) {single : Bool}
    (hending : ∀ rest, attributes? .plain (ending ++ rest) = some ([], single, rest))
    (rest : List Char) :
    Xml.pieces? .plain (rootTag tag name value ++ (ending ++ rest))
      = (Xml.pieces? .plain rest).map ((if single then .single ⟨tag, [(name, value)]⟩
          else .opening ⟨tag, [(name, value)]⟩) :: ·) := by
  let start := tag.toList ++ ' ' :: (name.toList ++ '=' :: '"' :: (value ++ '"' :: ending))
  have htext : rootTag tag name value ++ (ending ++ rest) = '<' :: (start ++ rest) := by
    simp [rootTag, start]
  have hpiece : piece? .plain '<' (start ++ rest)
      = some (if single then .single ⟨tag, [(name, value)]⟩
          else .opening ⟨tag, [(name, value)]⟩, rest) := by
    have hattributes := attributes?_cons h.name_isName h.noQuote h.noBracket (ending ++ rest)
    rw [hending, Option.map_some, String.ofList_toList] at hattributes
    have := piece?_startTag h.tag_isTag.isName (stops_cons (by decide)) hattributes
    rw [String.ofList_toList] at this
    simpa [start] using this
  rw [htext, pieces?_cons hpiece (by simp)]

end IsRoot

/-! ### Documents -/

/-- Nothing but white space stands before a root element. -/
theorem prolog?_root {c : Char} (hmark : c ≠ '?') (hbang : c ≠ '!') (cs : List Char) :
    prolog? .plain false none ('\n' :: '<' :: c :: cs) = some (noDoctype, '<' :: c :: cs) := by
  have hspace : ('\n' :: '<' :: c :: cs).dropWhile isSpace = '<' :: c :: cs := rfl
  rw [prolog?.eq_def, hspace]
  split
  · next heq => exact absurd (List.cons.inj (List.cons.inj heq).2).1 hmark
  · next heq => exact absurd (List.cons.inj (List.cons.inj heq).2).1 hbang
  · next heq => exact absurd (List.cons.inj (List.cons.inj heq).2).1 hbang
  · rfl

/-- The pieces of the content decide what the root element is. -/
theorem IsRoot.root?_of_pieces (h : IsRoot tag name value read) {rest : List Char}
    {pieces : List Piece} {e : Element}
    (hpieces : Xml.pieces? .plain (rootTag tag name value ++ rest) = some pieces)
    (hrun : pieces.foldlM plainStep .initial = some ⟨[], some e⟩) :
    root? ⟨.plain, false, '\n' :: (rootTag tag name value ++ rest)⟩ = some e := by
  have htag := h.tag_isTag.isName
  obtain ⟨c, cs, hcs⟩ : ∃ c cs, tag.toList = c :: cs := by
    cases hcs : tag.toList with
    | nil =>
      rw [hcs] at htag
      cases htag
    | cons c cs => exact ⟨c, cs, rfl⟩
  rw [hcs] at htag
  -- A name begins neither like an instruction nor like a declaration.
  have hprolog := prolog?_root (ne_of_isName htag (d := '?') (by decide))
    (ne_of_isName htag (d := '!') (by decide))
  rw [rootTag, hcs, List.cons_append, List.cons_append, List.cons_append] at hpieces ⊢
  unfold root?
  simp only [hprolog, Option.bind_eq_bind, Option.bind_some, isBearable_noDoctype, hpieces,
    run_noDoctype, hrun]
  rfl

/-- A root element between its tags. -/
theorem IsRoot.root?_element (h : IsRoot tag name value read) {text : List Char} {o : Open}
    (hinner : Spells text (.root tag name read) o) (ho : o.name = tag) :
    root? ⟨.plain, false, '\n' :: (rootTag tag name value
      ++ '>' :: (text ++ '<' :: '/' :: (tag.toList ++ ['>'])))⟩ = some o.close := by
  obtain ⟨pieces, hpieces, hfeeds⟩ := hinner
  -- The pieces of the text stand between those of the two tags.
  have hpieces' : Xml.pieces? .plain (rootTag tag name value
      ++ '>' :: (text ++ '<' :: '/' :: (tag.toList ++ ['>'])))
      = some (.opening ⟨tag, [(name, value)]⟩ :: (pieces ++ [.closing tag])) := by
    have hopening := h.pieces? ['>'] attributes?_close (text ++ '<' :: '/' :: (tag.toList ++ ['>']))
    rw [hpieces _ (stops_cons (by decide)), pieces?_endTag h.tag_isTag.isName, pieces?_nil]
      at hopening
    exact hopening
  have hopen : plainStep .initial (.opening ⟨tag, [(name, value)]⟩)
      = some ⟨[.root tag name read], none⟩ := by
    rw [plainStep, Growth.step, h.open?]
    rfl
  refine h.root?_of_pieces hpieces' ?_
  rw [List.foldlM_cons, hopen]
  show (pieces ++ [Piece.closing tag]).foldlM plainStep _ = _
  rw [List.foldlM_append, hfeeds [] none]
  show [Piece.closing tag].foldlM plainStep ⟨[o], none⟩ = _
  rw [List.foldlM_cons, plainStep, Growth.step, Growth.close?]
  dsimp only
  rw [if_pos ⟨ho, by simp⟩]
  rfl

/-- A root element without contents. -/
theorem IsRoot.root?_single (h : IsRoot tag name value read) :
    root? ⟨.plain, false, '\n' :: (rootTag tag name value ++ " />".toList)⟩
      = some (.mk tag [(name, read)] "" []) := by
  have hsingle := h.pieces? " />".toList attributes?_closeSingle []
  rw [pieces?_nil, List.append_nil] at hsingle
  refine h.root?_of_pieces hsingle ?_
  show [Piece.single ⟨tag, [(name, value)]⟩].foldlM plainStep .initial = _
  rw [List.foldlM_cons, plainStep, Growth.step, h.open?]
  rfl

end Worksheet.Xml
