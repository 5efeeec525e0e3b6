import Worksheet.Proofs.Xml.Markup
import Worksheet.Xml.Document

/-!
# Texts of elements

A text spells out what becomes of an open element if reading its pieces does just that, whatever the
element stands in and whatever comes behind the text. The texts of whole elements are put together
from those of their parts.

* `Feeds`: what pieces make of the innermost open element.
* `Spells`, `Closes`: what a text makes of it, if markup follows, or whatever follows.
* `Closes.element`: an element between its tags.
-/

namespace Worksheet.Xml

open Worksheet.Text (Stops stops_nil stops_cons)

/-- The document type of a document without a declaration. -/
abbrev noDoctype : Doctype := .initial false

/-- Takes a piece in, in a document that declares nothing. -/
def plainStep (g : Growth) (piece : Piece) : Option Growth :=
  g.step noDoctype .plain 0 (fun _ _ => none) piece

/-- Without declared entities nothing is ever expanded. -/
theorem run_noDoctype (g : Growth) (pieces : List Piece) :
    Growth.run noDoctype noDoctype.reach .plain 0 g pieces = pieces.foldlM plainStep g := by
  rw [Growth.run.eq_def]
  rfl

/-- A text that refers to no declared entity is always of bearable size. -/
theorem isBearable_noDoctype (cs : List Char) : noDoctype.isBearable cs = true := by
  have hsize : ∀ (names : List String) (n : Nat),
      names.foldl (fun size name => size + (([] : List (String × Nat)).lookup name).getD 0) n = n := by
    intro names
    induction names with
    | nil => exact fun _ => rfl
    | cons name names ih => exact fun n => ih n
  have hmax : cs.length < Doctype.maxSize cs := by
    unfold Doctype.maxSize
    omega
  have hsizes : noDoctype.sizes (Doctype.maxSize cs) noDoctype.reach [] = [] := rfl
  rw [Doctype.isBearable, hsizes, Doctype.sizeWith, hsize]
  simp [hmax]

namespace Open

/-- The element with some more character data. Only what stands before the first child counts. -/
def fed (o : Open) (cs : List Char) : Open :=
  if o.children.isEmpty then { o with text := cs.reverse ++ o.text } else o

/-- The element with one more child. -/
def push (o : Open) (e : Element) : Open := { o with children := e :: o.children }

/-- An element without attributes whose start has just been read. -/
def start (tag : String) (scope : Scope) : Open := ⟨tag, scope, tag, [], [], []⟩

theorem fed_nil (o : Open) : o.fed [] = o := by
  unfold fed
  split <;> rfl

/-- Character data may come in parts. -/
theorem fed_append (o : Open) (cs ds : List Char) : o.fed (cs ++ ds) = (o.fed cs).fed ds := by
  unfold fed
  split <;> simp_all

@[simp] theorem scope_fed (o : Open) (cs : List Char) : (o.fed cs).scope = o.scope := by
  unfold fed
  split <;> rfl

@[simp] theorem name_fed (o : Open) (cs : List Char) : (o.fed cs).name = o.name := by
  unfold fed
  split <;> rfl

end Open

/-! ### Pieces

Rows of pieces are composed like functions on the innermost open element. Whatever is around it
stays as it is, because only an end tag looks at it.
-/

/-- Reading the pieces makes the second of the first open element. -/
def Feeds (pieces : List Piece) (o o' : Open) : Prop :=
  ∀ path root, pieces.foldlM plainStep ⟨o :: path, root⟩ = some ⟨o' :: path, root⟩

namespace Feeds

variable {o o' o'' : Open} {pieces pieces' : List Piece}

theorem nil (o : Open) : Feeds [] o o := fun _ _ => rfl

/-- One row of pieces after another. -/
theorem append (h : Feeds pieces o o') (h' : Feeds pieces' o' o'') :
    Feeds (pieces ++ pieces') o o'' := by
  intro path root
  rw [List.foldlM_append, h path root]
  exact h' path root

/-- Character data is added to the innermost element. -/
theorem addText (o : Open) (cs : List Char) (path : List Open) (root : Option Element) :
    Growth.addText ⟨o :: path, root⟩ cs = some ⟨o.fed cs :: path, root⟩ := by
  unfold Growth.addText Open.fed
  dsimp only
  split <;> rfl

theorem text (o : Open) (cs : List Char) : Feeds [.text cs] o (o.fed cs) := by
  intro path root
  rw [List.foldlM_cons, plainStep, Growth.step, if_neg (by simp), addText]
  rfl

theorem data (o : Open) (cs : List Char) : Feeds [.data cs] o (o.fed cs) := by
  intro path root
  rw [List.foldlM_cons, plainStep, Growth.step, addText]
  rfl

/-- A reference to a character by its name is read as the character. -/
theorem entity (o : Open) {name : String} {c : Char} (h : predefined? name = some c) :
    Feeds [.entity name] o (o.fed [c]) := by
  intro path root
  rw [List.foldlM_cons, plainStep, Growth.step, h]
  dsimp only
  rw [addText]
  rfl

end Feeds

/-! ### Elements

The tags of an element open it within the one around it and close it again, so that from outside
only a new child is seen.
-/

/-- A name that belongs to no namespace as long as none is bound. -/
def IsLocal (name : String) : Prop := Scope.split name = none

/-- A name that a tag can have so that its element has the same. -/
structure IsTag (name : String) : Prop where
  isName : isName .plain name.toList = true
  isLocal : IsLocal name

theorem enter?_initial {name : String} (h : IsLocal name) :
    Scope.enter? .initial name [] = some (.initial, name, []) := by
  have htag : Scope.tag? .initial name = some name := by
    rw [Scope.tag?, h]
    rfl
  unfold Scope.enter?
  show (Scope.tag? .initial name >>= _) = _
  rw [htag]
  rfl

theorem attributesOf_nil (name : String) :
    noDoctype.attributesOf .plain ⟨name, []⟩ = some [] := rfl

/-- A start tag opens an element within the innermost one. -/
theorem open?_child {o : Open} (hscope : o.scope = .initial) {name : String} (h : IsLocal name)
    (path : List Open) (root : Option Element) :
    Growth.open? noDoctype .plain ⟨o :: path, root⟩ ⟨name, []⟩
      = some (.start name .initial) := by
  have hinner : Growth.scope ⟨o :: path, root⟩ = .initial := hscope
  unfold Growth.open?
  rw [attributesOf_nil, hinner]
  simp only [List.isEmpty_cons, Bool.false_and, Bool.false_eq_true, if_false, Option.bind_eq_bind,
    Option.bind_some, enter?_initial h]
  rfl

namespace Feeds

variable {o o' : Open} {pieces : List Piece} {name : String}

/-- An element without contents is a child at once. -/
theorem single (hscope : o.scope = .initial) (h : IsLocal name) :
    Feeds [.single ⟨name, []⟩] o (o.push (.mk name [] "" [])) := by
  intro path root
  rw [List.foldlM_cons, plainStep, Growth.step, open?_child hscope h]
  rfl

/-- The pieces of an element between its tags. -/
theorem element (hscope : o.scope = .initial) (h : IsLocal name)
    (hinner : Feeds pieces (.start name .initial) o') (hname : o'.name = name) :
    Feeds (.opening ⟨name, []⟩ :: (pieces ++ [.closing name])) o (o.push o'.close) := by
  intro path root
  have hopen : plainStep ⟨o :: path, root⟩ (.opening ⟨name, []⟩)
      = some ⟨.start name .initial :: o :: path, root⟩ := by
    rw [plainStep, Growth.step, open?_child hscope h]
    rfl
  rw [List.foldlM_cons, hopen]
  show (pieces ++ [Piece.closing name]).foldlM plainStep _ = _
  rw [List.foldlM_append, hinner (o :: path) root]
  show [Piece.closing name].foldlM plainStep ⟨o' :: o :: path, root⟩ = _
  rw [List.foldlM_cons, plainStep, Growth.step, Growth.close?]
  dsimp only
  rw [if_pos ⟨hname, by simp⟩]
  rfl

end Feeds

/-! ### Texts

Whether a run of characters ends with a piece depends on what comes behind. So two relations are
needed: one for texts that end with markup, and one for those that need markup behind them.
-/

/-- Reading the text makes the second of the first open element, as long as the text is not followed
by character data. -/
def Spells (text : List Char) (o o' : Open) : Prop :=
  ∃ pieces, (∀ rest, Stops isPlain rest →
      pieces? .plain (text ++ rest) = (pieces? .plain rest).map (pieces ++ ·))
    ∧ Feeds pieces o o'

/-- Reading the text makes the second of the first open element, whatever follows. -/
def Closes (text : List Char) (o o' : Open) : Prop :=
  ∃ pieces, (∀ rest, pieces? .plain (text ++ rest) = (pieces? .plain rest).map (pieces ++ ·))
    ∧ Feeds pieces o o'

/-- Pieces are put in front of others in two steps or in one. -/
theorem map_append_pieces (pieces pieces' : List Piece) (found : Option (List Piece)) :
    (found.map (pieces' ++ ·)).map (pieces ++ ·) = found.map (pieces ++ pieces' ++ ·) := by
  rw [Option.map_map]
  congr 1
  funext more
  exact (List.append_assoc pieces pieces' more).symm

namespace Spells

variable {o o' o'' : Open} {text text' : List Char}

theorem nil (o : Open) : Spells [] o o :=
  ⟨[], fun rest _ => by simp, .nil o⟩

/-- A run of character data. -/
theorem run {run : List Char} (hrun : ∀ c ∈ run, isPlain c = true) (hend : '>' ∉ run) (o : Open) :
    Spells run o (o.fed run) := by
  by_cases hne : run = []
  · subst hne
    rw [Open.fed_nil]
    exact .nil o
  · exact ⟨[.text run], fun rest hrest => pieces?_run hne hrun hend hrest, .text o run⟩

/-- Character data may be followed by a text that begins with markup. -/
theorem append (h : Spells text o o') {c : Char} (h' : Spells (c :: text') o' o'')
    (hc : isPlain c = false) : Spells (text ++ c :: text') o o'' := by
  obtain ⟨pieces, hpieces, hfeeds⟩ := h
  obtain ⟨pieces', hpieces', hfeeds'⟩ := h'
  refine ⟨pieces ++ pieces', ?_, hfeeds.append hfeeds'⟩
  intro rest hrest
  rw [List.append_assoc, hpieces (c :: text' ++ rest) (stops_cons hc), hpieces' rest hrest,
    map_append_pieces]

end Spells

namespace Closes

variable {o o' o'' : Open} {text text' : List Char} {name : String}

/-- Markup may be followed by any text. -/
theorem append (h : Closes text o o') (h' : Spells text' o' o'') :
    Spells (text ++ text') o o'' := by
  obtain ⟨pieces, hpieces, hfeeds⟩ := h
  obtain ⟨pieces', hpieces', hfeeds'⟩ := h'
  refine ⟨pieces ++ pieces', ?_, hfeeds.append hfeeds'⟩
  intro rest hrest
  rw [List.append_assoc, hpieces, hpieces' rest hrest, map_append_pieces]

/-- One piece of markup. -/
theorem piece {c : Char} {cs : List Char} {p : Piece}
    (hpiece : ∀ rest, piece? .plain c (cs ++ rest) = some (p, rest)) (hfeeds : Feeds [p] o o') :
    Closes (c :: cs) o o' :=
  ⟨[p], fun rest => pieces?_cons (hpiece rest) (by simp), hfeeds⟩

/-- The tag of an element without contents. -/
theorem single (hscope : o.scope = .initial) (h : IsTag name) :
    Closes ('<' :: (name.toList ++ " />".toList)) o (o.push (.mk name [] "" [])) := by
  refine piece ?_ (.single hscope h.isLocal)
  intro rest
  have hstops : Stops (continuesName .plain) (" />".toList ++ rest) := stops_cons (by decide)
  rw [List.append_assoc, piece?_startTag h.isName hstops (attributes?_closeSingle rest),
    String.ofList_toList]
  rfl

/-- An element between its tags. -/
theorem element (hscope : o.scope = .initial) (h : IsTag name)
    (hinner : Spells text (.start name .initial) o') (ho' : o'.name = name) :
    Closes ('<' :: (name.toList ++ '>' :: (text ++ '<' :: '/' :: (name.toList ++ ['>'])))) o
      (o.push o'.close) := by
  -- Inside, markup follows the text in any case: the end tag.
  obtain ⟨pieces, hpieces, hfeeds⟩ := hinner
  refine ⟨_, ?_, hfeeds.element hscope h.isLocal ho'⟩
  intro rest
  have htext : '<' :: (name.toList ++ '>' :: (text ++ '<' :: '/' :: (name.toList ++ ['>']))) ++ rest
      = '<' :: (name.toList ++ '>' :: (text ++ '<' :: '/' :: (name.toList ++ '>' :: rest))) := by
    simp
  rw [htext, pieces?_startTag h.isName, hpieces _ (stops_cons (by decide)),
    pieces?_endTag h.isName, Option.map_map, Option.map_map]
  congr 1
  funext more
  simp

end Closes

end Worksheet.Xml
