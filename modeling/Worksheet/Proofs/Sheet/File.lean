import Worksheet.Proofs.Result
import Worksheet.Proofs.Sheet.Check
import Worksheet.Proofs.Sheet.Escape
import Worksheet.Proofs.Xml.Document
import Worksheet.Proofs.Xml.Source

/-!
# Documents of saved sheets

A document that is written for a saved sheet is read as the saved sheet.

* `closes_renderText`, `closes_renderCell`, `spells_cells`: what is written for the parts of a saved
  sheet is read as the elements that stand for them.
* `ofElement_root`: the elements stand for the parts.
* `read_render`: the document stands for the whole.
-/

namespace Worksheet.Saved

open Worksheet.Text (stops_nil stops_cons)
open Worksheet.Xml (Open Element IsFree IsRoot IsTag Source Spells Closes isChar isPlain
  isSpace rootTag)

/-! ### Elements

How the text of a document is read, from the inside out: a text between its tags, the two texts of a
cell, and the cells on their lines. Each is fed to the element that is open, which gains what has
been read as a child.
-/

/-- The element that holds a text. -/
def textElement (tag text : String) : Element := .mk tag [] text []

/-- The element of a cell, with the white space before its first child. -/
def cellElement (cell : String × String) : Element :=
  .mk "cell" [] "\n    " [textElement "name" cell.1, textElement "contents" cell.2]

theorem isTag_name : IsTag "name" := ⟨rfl, rfl⟩

theorem isTag_contents : IsTag "contents" := ⟨rfl, rfl⟩

theorem isTag_cell : IsTag "cell" := ⟨rfl, rfl⟩

/-- An element that holds a text is read as that element. -/
theorem closes_renderText {tag : String} (htag : IsTag tag) (text : String) {o : Open}
    (ho : o.scope = .initial) :
    Closes (renderText tag text) o (o.push (textElement tag text)) := by
  unfold renderText
  split
  · next hempty =>
    rw [String.isEmpty_iff.mp hempty]
    exact .single ho htag
  · have hclose : ((Open.start tag .initial).fed text.toList).close = textElement tag text := by
      simp [Open.close, Open.fed, Open.start, textElement]
    have helement := Closes.element ho htag
      (spells_escaped text.toList (.start tag .initial)) (Open.name_fed _ _)
    rw [hclose] at helement
    simpa using helement

/-- It begins with an angle bracket, so blanks before it are read as far as there. -/
theorem exists_renderText (tag text : String) : ∃ cs, renderText tag text = '<' :: cs := by
  unfold renderText
  split
  · exact ⟨_, rfl⟩
  · exact ⟨_, rfl⟩

/-- White space is character data. -/
theorem spells_blank {blank : List Char} (hblank : blank.all isSpace = true) (o : Open) :
    Spells blank o (o.fed blank) := by
  have hspace : ∀ c ∈ blank, isPlain c = true ∧ c ≠ '>' := by
    intro c hc
    have := List.all_eq_true.mp hblank c hc
    simp only [isSpace, Bool.or_eq_true, beq_iff_eq] at this
    rcases this with ((rfl | rfl) | rfl) | rfl <;> exact ⟨rfl, by decide⟩
  exact .run (fun c hc => (hspace c hc).1) (fun hc => (hspace '>' hc).2 rfl) o

/-- An element behind white space, and what is behind the element. -/
theorem spells_line {blank text text' : List Char} {o o' o'' : Open}
    (hblank : blank.all isSpace = true) (htext : ∃ cs, text = '<' :: cs)
    (h : Closes text (o.fed blank) o') (h' : Spells text' o' o'') :
    Spells (blank ++ (text ++ text')) o o'' := by
  obtain ⟨cs, rfl⟩ := htext
  exact Spells.append (spells_blank hblank o) (h.append h') (by decide)

/-- The text of a cell without the white space around it. -/
def cellText (cell : String × String) : List Char :=
  '<' :: ("cell".toList ++ '>' :: ("\n    ".toList ++ (renderText "name" cell.1
    ++ ("\n    ".toList ++ (renderText "contents" cell.2 ++ "\n  ".toList)))
    ++ '<' :: '/' :: ("cell".toList ++ ['>'])))

/-- A cell stands on lines of its own, indented. -/
theorem renderCell_eq (cell : String × String) :
    renderCell cell.1 cell.2 = "  ".toList ++ (cellText cell ++ ['\n']) := by
  have hopen : "  <cell>\n    ".toList
      = "  ".toList ++ '<' :: ("cell".toList ++ '>' :: "\n    ".toList) := rfl
  have hclose : "\n  </cell>\n".toList
      = "\n  ".toList ++ '<' :: '/' :: ("cell".toList ++ ['>', '\n']) := rfl
  unfold renderCell cellText
  generalize renderText "name" cell.1 = name
  generalize renderText "contents" cell.2 = contents
  simp only [hopen, hclose, List.append_assoc, List.cons_append, List.nil_append]

/-- A cell is read as an element with its name and its contents. -/
theorem closes_cellText (cell : String × String) {o : Open} (ho : o.scope = .initial) :
    Closes (cellText cell) o (o.push (cellElement cell)) := by
  let start : Open := .start "cell" .initial
  let named : Open := (start.fed "\n    ".toList).push (textElement "name" cell.1)
  let filled : Open := (named.fed "\n    ".toList).push (textElement "contents" cell.2)
  have hname : Closes (renderText "name" cell.1) (start.fed "\n    ".toList) named :=
    closes_renderText isTag_name cell.1 rfl
  have hcontents : Closes (renderText "contents" cell.2) (named.fed "\n    ".toList) filled :=
    closes_renderText isTag_contents cell.2 rfl
  have hend : Spells "\n  ".toList filled (filled.fed "\n  ".toList) :=
    spells_blank rfl filled
  have hinner := spells_line rfl (exists_renderText _ _) hname
    (spells_line rfl (exists_renderText _ _) hcontents hend)
  have hclose : (filled.fed "\n  ".toList).close = cellElement cell := rfl
  exact hclose ▸ Closes.element ho isTag_cell hinner rfl

/-- The root element with the elements of cells in it. -/
def withCells (o : Open) (cells : List (String × String)) : Open :=
  (cells.foldl (fun o cell => (o.fed "\n  ".toList).push (cellElement cell)) o).fed ['\n']

/-- All cells are read in turn, and the blanks between them are lost. -/
theorem spells_cells (cells : List (String × String)) {o : Open} (ho : o.scope = .initial) :
    Spells ('\n' :: cells.flatMap fun (name, contents) => renderCell name contents) o
      (withCells o cells) := by
  induction cells generalizing o with
  | nil => exact spells_blank rfl o
  | cons cell cells ih =>
    let o' : Open := (o.fed "\n  ".toList).push (cellElement cell)
    have hcell : Closes (cellText cell) (o.fed "\n  ".toList) o' :=
      closes_cellText cell ((Open.scope_fed _ _).trans ho)
    have hrest := ih (o := o') ((Open.scope_fed _ _).trans ho)
    have hline := spells_line rfl ⟨_, rfl⟩ hcell hrest
    have htext : '\n' :: (cell :: cells).flatMap (fun (name, contents) => renderCell name contents)
        = "\n  ".toList ++ (cellText cell
          ++ '\n' :: cells.flatMap fun (name, contents) => renderCell name contents) := by
      rw [List.flatMap_cons]
      show '\n' :: (renderCell cell.1 cell.2 ++ _) = _
      rw [renderCell_eq]
      simp only [List.append_assoc, List.cons_append, List.nil_append]
      rfl
    exact htext ▸ hline

/-- Text that is fed changes nothing else of an element. -/
theorem exists_fed (o : Open) (cs : List Char) : ∃ text, o.fed cs = { o with text } := by
  unfold Open.fed
  split
  · exact ⟨_, rfl⟩
  · exact ⟨_, rfl⟩

/-- The elements of cells become the children of the root element. -/
theorem exists_withCells (cells : List (String × String)) (o : Open) :
    ∃ text, withCells o cells
      = { o with text, children := (cells.map cellElement).reverse ++ o.children } := by
  induction cells generalizing o with
  | nil => exact exists_fed o ['\n']
  | cons cell cells ih =>
    obtain ⟨text, htext⟩ := ih ((o.fed "\n  ".toList).push (cellElement cell))
    obtain ⟨text', htext'⟩ := exists_fed o "\n  ".toList
    refine ⟨text, ?_⟩
    show withCells ((o.fed "\n  ".toList).push (cellElement cell)) cells = _
    rw [htext, htext']
    simp [Open.push]

/-! ### What the elements stand for

The cells are found in the element of the root, in order, and nothing else in it is taken for a
cell.
-/

/-- An element of a cell holds no other. -/
theorem withTag_cellElement (cell : String × String) :
    (cellElement cell).withTag "cell" = [cellElement cell] := by
  simp [cellElement, textElement, Element.withTag, Element.allWithTag]

/-- The elements of cells are all found. -/
theorem allWithTag_cellElement (cells : List (String × String)) :
    Element.allWithTag "cell" (cells.map cellElement) = cells.map cellElement := by
  induction cells with
  | nil => rfl
  | cons cell cells ih =>
    rw [List.map_cons, Element.allWithTag, withTag_cellElement, ih, List.singleton_append]

/-- Name and contents are found in the element of a cell. -/
theorem ofCell_cellElement (cell : String × String) : ofCell (cellElement cell) = .ok cell := rfl

/-- So are those of all cells. -/
theorem mapM_ofCell (cells : List (String × String)) :
    (cells.map cellElement).mapM ofCell = .ok cells := by
  induction cells with
  | nil => rfl
  | cons cell cells ih =>
    rw [List.map_cons, List.mapM_cons, ofCell_cellElement, ih]
    rfl

/-- The root element of a saved sheet. -/
def rootElement (saved : Saved String) (text : String) : Element :=
  .mk "spreadsheet" [("version", saved.version)] text (saved.cells.map cellElement)

/-- Whatever text stands before its cells, the root is read as the saved sheet. -/
theorem ofElement_rootElement (saved : Saved String) (text : String) :
    ofElement (rootElement saved text) = .ok saved := by
  have htag : (rootElement saved text).tag = "spreadsheet" := rfl
  have hversion : (rootElement saved text).valueOf? "version" = some saved.version := rfl
  have hcells : (rootElement saved text).withTag "cell" = saved.cells.map cellElement := by
    rw [rootElement, Element.withTag, if_neg (by decide), allWithTag_cellElement, List.nil_append]
  rw [ofElement, if_pos htag, hversion]
  dsimp only
  rw [hcells, mapM_ofCell]
  rfl

/-! ### Characters

What is written holds only characters that a document may hold, and no carriage return, since that
is written as a reference. So no line end is changed when it is read.
-/

/-- Whether a document can hold a text. -/
def IsStorable (text : String) : Prop := ∀ c ∈ text.toList, isChar c = true

/-- What is not refused can be held by a document. -/
theorem isStorable_of_check {saved : Saved String} (h : saved.check = .ok ()) :
    IsStorable saved.version ∧ ∀ cell ∈ saved.cells, IsStorable cell.1 ∧ IsStorable cell.2 := by
  obtain ⟨hversion, hname, hcontents⟩ := check_eq_ok_iff.mp h
  simp only [IsStorable, Xml.isChar_iff]
  exact ⟨hversion, fun cell hcell => ⟨hname cell hcell, hcontents cell hcell⟩⟩

/-- Whether a character is read as it stands in a document. -/
def isClean (c : Char) : Bool := isChar c && c != '\r'

/-- Escaping a text leaves no carriage return in it. -/
theorem all_isClean_escapeText {text : String} (h : IsStorable text) :
    (text.toList.flatMap escapeText).all isClean = true := by
  rw [List.all_eq_true]
  intro d hd
  obtain ⟨c, hc, hd⟩ := List.mem_flatMap.mp hd
  obtain ⟨hchar, -, hreturn⟩ := mem_escapeText (h c hc) hd
  simp [isClean, hchar, hreturn]

/-- The same holds of the value of an attribute. -/
theorem all_isClean_escapeValue {text : String} (h : IsStorable text) :
    (text.toList.flatMap escapeValue).all isClean = true := by
  rw [List.all_eq_true]
  intro d hd
  obtain ⟨c, hc, hd⟩ := List.mem_flatMap.mp hd
  obtain ⟨hchar, -, hreturn, -⟩ := mem_escapeValue hd
  simp [isClean, hchar (h c hc), hreturn]

/-- An element with a text is clean if its tag is and its text can be stored. -/
theorem all_isClean_renderText {tag text : String} (htag : tag.toList.all isClean = true)
    (h : IsStorable text) : (renderText tag text).all isClean = true := by
  have hslash : isClean '/' = true := rfl
  have hopen : isClean '<' = true := rfl
  have hclose : isClean '>' = true := rfl
  have hsingle : " />".toList.all isClean = true := rfl
  unfold renderText
  split
  · simp only [List.all_append, List.all_cons, htag, hopen, hsingle, Bool.and_self]
  · simp only [List.all_append, List.all_cons, List.all_nil, htag, hopen, hclose, hslash,
      all_isClean_escapeText h, Bool.and_self]

/-- A cell is clean if its name and its contents can be stored. -/
theorem all_isClean_renderCell {cell : String × String} (hname : IsStorable cell.1)
    (hcontents : IsStorable cell.2) : (renderCell cell.1 cell.2).all isClean = true := by
  have hopen : "  <cell>\n    ".toList.all isClean = true := rfl
  have hline : "\n    ".toList.all isClean = true := rfl
  have hclose : "\n  </cell>\n".toList.all isClean = true := rfl
  have hfirst : (renderText "name" cell.1).all isClean = true := all_isClean_renderText rfl hname
  have hsecond : (renderText "contents" cell.2).all isClean = true :=
    all_isClean_renderText rfl hcontents
  unfold renderCell
  simp only [List.all_append, hopen, hline, hclose, hfirst, hsecond, Bool.and_self]

/-! ### Documents

A document is its declaration, the opening tag of the root, and the cells. It is read from the
front: the encoding first, then the root, then what is in it.
-/

/-- What follows the attribute of the root element. -/
def ending (cells : List (String × String)) : List Char :=
  if cells.isEmpty then " />".toList
  else '>' :: ('\n' :: (cells.flatMap fun (name, contents) => renderCell name contents)
    ++ '<' :: '/' :: ("spreadsheet".toList ++ ['>']))

/-- The text behind the declaration and its line break. -/
def content (saved : Saved String) : List Char :=
  rootTag "spreadsheet" "version" (saved.version.toList.flatMap escapeValue) ++ ending saved.cells

/-- The declaration stands first, on a line of its own. -/
theorem render_eq (saved : Saved String) :
    saved.render = String.ofList (Source.declaration ++ '\n' :: saved.content) := by
  have hopening : "<?xml version='1.0' encoding='utf-8'?>\n<spreadsheet version=\"".toList
      = Source.declaration ++ '\n' :: '<' :: ("spreadsheet".toList
        ++ ' ' :: ("version".toList ++ ['=', '"'])) := rfl
  have hcells : ">\n".toList = ['>', '\n'] := rfl
  have hclosing : "</spreadsheet>".toList = '<' :: '/' :: ("spreadsheet".toList ++ ['>']) := rfl
  unfold render content ending rootTag
  rw [hopening, hcells, hclosing]
  split
  · simp only [List.append_assoc, List.cons_append, List.nil_append]
  · simp only [List.append_assoc, List.cons_append, List.nil_append]

/-- Where the check finds nothing, the whole document is clean. -/
theorem all_isClean_content {saved : Saved String} (h : saved.check = .ok ()) :
    ('\n' :: saved.content).all isClean = true := by
  obtain ⟨hversion, hcells⟩ := isStorable_of_check h
  have hvalue := all_isClean_escapeValue hversion
  have hlines : (saved.cells.flatMap fun (name, contents) =>
      renderCell name contents).all isClean = true := by
    rw [List.all_flatMap, List.all_eq_true]
    intro cell hcell
    exact all_isClean_renderCell (hcells cell hcell).1 (hcells cell hcell).2
  have hchars : isClean '\n' = true ∧ isClean '<' = true ∧ isClean '>' = true ∧ isClean '/' = true
      ∧ isClean ' ' = true ∧ isClean '=' = true ∧ isClean '"' = true := by decide
  have hwords : "spreadsheet".toList.all isClean = true ∧ "version".toList.all isClean = true
      ∧ " />".toList.all isClean = true := ⟨rfl, rfl, rfl⟩
  unfold content ending rootTag
  split
  · simp only [List.all_append, List.all_cons, List.all_nil, hvalue, hchars, hwords, Bool.and_self]
  · simp only [List.all_append, List.all_cons, List.all_nil, hvalue, hlines, hchars, hwords,
      Bool.and_self]

/-- The document opens with the tag of the root and the version as its attribute. -/
theorem isRoot_content (saved : Saved String) :
    IsRoot "spreadsheet" "version" (saved.version.toList.flatMap escapeValue) saved.version where
  tag_isTag := ⟨rfl, rfl⟩
  name_isName := rfl
  name_isFree := ⟨rfl, rfl⟩
  noQuote hd := by
    obtain ⟨c, -, hd⟩ := List.mem_flatMap.mp hd
    exact (mem_escapeValue hd).2.2.2 rfl
  noBracket hd := by
    obtain ⟨c, -, hd⟩ := List.mem_flatMap.mp hd
    exact (mem_escapeValue hd).2.1 rfl
  value_eq := attributeValue?_escaped saved.version.toList

/-- The root element of a written document is that of the saved sheet. -/
theorem root?_content (saved : Saved String) :
    ∃ text, Xml.root? ⟨.plain, false, '\n' :: saved.content⟩ = some (rootElement saved text) := by
  have hroot := isRoot_content saved
  unfold content ending
  split
  · next hempty =>
    refine ⟨"", ?_⟩
    rw [hroot.root?_single, rootElement, List.isEmpty_iff.mp hempty]
    rfl
  · obtain ⟨text, htext⟩ :=
      exists_withCells saved.cells (.root "spreadsheet" "version" saved.version)
    have hspells := spells_cells saved.cells (o := .root "spreadsheet" "version" saved.version) rfl
    rw [htext] at hspells
    refine ⟨String.ofList text.reverse, ?_⟩
    have helement := hroot.root?_element hspells rfl
    simpa [Open.close, Open.root, rootElement] using helement

/-- A written document is read as what it was written for. -/
theorem read_render {saved : Saved String} (h : saved.check = .ok ()) :
    read saved.render.toUTF8.data.toList = .ok saved := by
  -- The text behind the declaration comes through unchanged.
  have hclean := List.all_eq_true.mp (all_isClean_content h)
  simp only [isClean, Bool.and_eq_true, bne_iff_ne] at hclean
  have hsource : Source.read saved.render.toUTF8.data.toList
      = .ok ⟨.plain, false, '\n' :: saved.content⟩ := by
    rw [render_eq]
    exact Source.read_declared (fun c hc => (hclean c hc).1) fun hc => (hclean '\r' hc).2 rfl
  obtain ⟨text, hroot⟩ := root?_content saved
  have hread : Xml.read saved.render.toUTF8.data.toList = .ok (rootElement saved text) := by
    refine bind_eq_ok.mpr ⟨_, hsource, ?_⟩
    rw [hroot]
    rfl
  rw [read, hread]
  exact ofElement_rootElement saved text

end Worksheet.Saved
