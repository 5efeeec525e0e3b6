import Worksheet.Proofs.Text.Runs
import Worksheet.Xml.Markup

/-!
# Laws of markup

Which piece stands at the head of a text, for the kinds of pieces that written documents are made
of: tags, references, and runs of character data.

* `qualifiedName?_append`: a name is found in front of what does not continue it.
* `piece?_startTag`, `piece?_endTag`: tags.
* `pieces?_cons`, `pieces?_run`: the first piece of a text, and the pieces behind it.
-/

namespace Worksheet.Xml

open Worksheet.Text (Stops stops_nil stops_cons takeWhile_run dropWhile_run dropWhile_of_stops)

variable {script : Script} {rest : List Char}

/-! ### Words

A word is found only if it stands there as a whole. Both functions take it away and say what is
left.
-/

theorem eq_of_afterWord? {word cs rest : List Char} (h : afterWord? word cs = some rest) :
    cs = word ++ rest := by
  induction word generalizing cs with
  | nil => exact Option.some.inj h
  | cons w word ih =>
    cases cs with
    | nil => cases h
    | cons c cs =>
      rw [afterWord?] at h
      split at h
      · next hc => rw [hc, ih h, List.cons_append]
      · cases h

/-- The word stands between the two parts. -/
theorem eq_of_splitWord? {word cs before rest : List Char}
    (h : splitWord? word cs = some (before, rest)) : cs = before ++ word ++ rest := by
  induction cs generalizing before with
  | nil =>
    rw [splitWord?] at h
    split at h
    · next hword =>
      cases h
      rw [hword]
      rfl
    · cases h
  | cons c cs ih =>
    rw [splitWord?] at h
    split at h
    · next hafter =>
      cases h
      rw [eq_of_afterWord? hafter, List.nil_append]
    · obtain ⟨⟨before', rest'⟩, hsplit, hcons⟩ := Option.map_eq_some_iff.mp h
      cases hcons
      rw [ih hsplit]
      rfl

/-- A character that does not occur before splits a text where it stands. -/
theorem splitWord?_singleton {q : Char} {before : List Char} (h : q ∉ before) (rest : List Char) :
    splitWord? [q] (before ++ q :: rest) = some (before, rest) := by
  induction before with
  | nil => simp [splitWord?, afterWord?]
  | cons c before ih =>
    rw [List.mem_cons, not_or] at h
    rw [List.cons_append, splitWord?, ih h.2]
    simp [afterWord?, Ne.symm h.1]

/-! ### Names

A name is a run of certain characters behind one of fewer kinds, so it is found as a whole in front
of what cannot go on with it.
-/

/-- Whether a text is a name without colon. -/
def isName (script : Script) : List Char → Bool
  | [] => false
  | c :: cs => script.isStart c && cs.all script.isPart

/-- Whether a character continues a name, with a prefix or without. -/
def continuesName (script : Script) (c : Char) : Bool := script.isPart c || c == ':'

/-- A name is found as a whole. -/
theorem name?_append {name : List Char} (hname : isName script name = true)
    (hrest : Stops (continuesName script) rest) : name? script (name ++ rest) = some (name, rest) := by
  have hstops : Stops script.isPart rest := by
    intro c hc
    have := hrest c hc
    simp_all [continuesName]
  cases name with
  | nil => cases hname
  | cons c cs =>
    rw [isName, Bool.and_eq_true, List.all_eq_true] at hname
    rw [List.cons_append, name?, if_pos hname.1, takeWhile_run hname.2 hstops,
      dropWhile_run hname.2 hstops]

/-- A name is found in front of what does not continue it. -/
theorem qualifiedName?_append {name : List Char} (hname : isName script name = true)
    (hrest : Stops (continuesName script) rest) :
    qualifiedName? script (name ++ rest) = some (name, rest) := by
  rw [qualifiedName?, name?_append hname hrest]
  split
  · next heq =>
    cases heq
    have := hrest ':' rfl
    simp [continuesName] at this
  · rfl

/-- A name begins with none but a certain kind of character. -/
theorem ne_of_isName {c d : Char} {cs : List Char} (hname : isName script (c :: cs) = true)
    (hd : script.isStart d = false) : c ≠ d := by
  rintro rfl
  rw [isName, Bool.and_eq_true, hd] at hname
  cases hname.1

/-! ### Tags

What a tag is read as, written from its parts: a name, attributes with quoted values, and one of two
ends.
-/

theorem attributes?_close (rest : List Char) :
    attributes? script ('>' :: rest) = some ([], false, rest) := by
  rw [attributes?.eq_def]
  rfl

theorem attributes?_closeSingle (rest : List Char) :
    attributes? script (' ' :: '/' :: '>' :: rest) = some ([], true, rest) := by
  rw [attributes?.eq_def]
  rfl

theorem quotedText?_append {value : List Char} (h : '"' ∉ value) (rest : List Char) :
    quotedText? ('"' :: (value ++ '"' :: rest)) = some (value, rest) := by
  rw [quotedText?, if_pos (.inl rfl)]
  exact splitWord?_singleton h rest

/-- An attribute at the head of a text. -/
theorem attributes?_cons {name value : List Char} (hname : isName .plain name = true)
    (hquote : '"' ∉ value) (hbracket : '<' ∉ value) (rest : List Char) :
    attributes? .plain (' ' :: (name ++ '=' :: '"' :: (value ++ '"' :: rest)))
      = (attributes? .plain rest).map fun (more, single, rest) =>
          ((String.ofList name, value) :: more, single, rest) := by
  have hqualified : qualifiedName? .plain (name ++ '=' :: '"' :: (value ++ '"' :: rest)) = _ :=
    qualifiedName?_append hname (stops_cons (by decide))
  cases name with
  | nil => cases hname
  | cons c cs =>
    have hspace : isSpace c = false := by
      simp [isSpace, ne_of_isName hname (d := ' ') (by decide),
        ne_of_isName hname (d := '\t') (by decide), ne_of_isName hname (d := '\n') (by decide),
        ne_of_isName hname (d := '\r') (by decide)]
    have hstart : (' ' :: (c :: cs ++ '=' :: '"' :: (value ++ '"' :: rest))).dropWhile isSpace
        = c :: cs ++ '=' :: '"' :: (value ++ '"' :: rest) := by
      rw [List.dropWhile_cons_of_pos (by decide)]
      exact dropWhile_of_stops (stops_cons hspace)
    have hequals : ('=' :: '"' :: (value ++ '"' :: rest)).dropWhile isSpace
        = '=' :: '"' :: (value ++ '"' :: rest) := rfl
    have hvalue : quotedText? (('"' :: (value ++ '"' :: rest)).dropWhile isSpace)
        = some (value, rest) := quotedText?_append hquote rest
    rw [attributes?.eq_def, hstart]
    split
    · next heq => exact absurd (List.cons.inj heq).1 (ne_of_isName hname (by decide))
    · next heq => exact absurd (List.cons.inj heq).1 (ne_of_isName hname (by decide))
    · rw [if_pos (by simp), hqualified]
      simp only [hequals, hvalue]
      rw [if_neg hbracket, if_pos (by simp; omega)]

/-- A tag that begins with a name is a start tag. -/
theorem bracketed?_start {c : Char} {cs : List Char} (hslash : c ≠ '/') (hmark : c ≠ '?')
    (hbang : c ≠ '!') : bracketed? script (c :: cs) = startTag? script (c :: cs) := by
  unfold bracketed?
  split
  · next heq => exact absurd (List.cons.inj heq).1 hslash
  · next heq => exact absurd (List.cons.inj heq).1 hmark
  · next heq => exact absurd (List.cons.inj heq).1 hbang
  · next heq => exact absurd (List.cons.inj heq).1 hbang
  · rfl

/-- A start tag is a piece, whether or not it is also the end of its element. -/
theorem piece?_startTag {name rest after : List Char} {attributes : List (String × List Char)}
    {single : Bool} (hname : isName .plain name = true)
    (hrest : Stops (continuesName .plain) rest)
    (hattributes : attributes? .plain rest = some (attributes, single, after)) :
    piece? .plain '<' (name ++ rest)
      = some (if single then .single ⟨String.ofList name, attributes⟩
          else .opening ⟨String.ofList name, attributes⟩, after) := by
  have hqualified := qualifiedName?_append hname hrest
  cases name with
  | nil => cases hname
  | cons c cs =>
    rw [piece?, if_pos rfl, List.cons_append, bracketed?_start (ne_of_isName hname (by decide))
      (ne_of_isName hname (by decide)) (ne_of_isName hname (by decide)), startTag?,
      ← List.cons_append, hqualified]
    simp only [hattributes, Option.map_some]

theorem piece?_endTag {name : List Char} (hname : isName .plain name = true) (rest : List Char) :
    piece? .plain '<' ('/' :: (name ++ '>' :: rest))
      = some (.closing (String.ofList name), rest) := by
  have hqualified : qualifiedName? .plain (name ++ '>' :: rest) = _ :=
    qualifiedName?_append hname (stops_cons (by decide))
  rw [piece?, if_pos rfl]
  show endTag? .plain (name ++ '>' :: rest) = _
  rw [endTag?, hqualified]
  rfl

/-! ### Rows of pieces

A text is read piece by piece, by induction from its front: if the first piece is known, then the
others are those of what is left.
-/

theorem pieces?_nil : pieces? script [] = some [] := by
  rw [pieces?.eq_def]

/-- The first piece of a text, and the pieces behind it. -/
theorem pieces?_cons {c : Char} {cs rest : List Char} {piece : Piece}
    (h : piece? script c cs = some (piece, rest)) (hlength : rest.length ≤ cs.length) :
    pieces? script (c :: cs) = (pieces? script rest).map (piece :: ·) := by
  rw [pieces?.eq_def]
  simp only [h, if_pos hlength]

/-- A start tag without attributes at the head of a text. -/
theorem pieces?_startTag {name : String} (hname : isName .plain name.toList = true)
    (rest : List Char) :
    pieces? .plain ('<' :: (name.toList ++ '>' :: rest))
      = (pieces? .plain rest).map (.opening ⟨name, []⟩ :: ·) := by
  have hpiece := piece?_startTag hname (stops_cons (by decide)) (attributes?_close rest)
  rw [String.ofList_toList] at hpiece
  exact pieces?_cons hpiece (by simp; omega)

/-- An end tag at the head of a text. -/
theorem pieces?_endTag {name : String} (hname : isName .plain name.toList = true)
    (rest : List Char) :
    pieces? .plain ('<' :: '/' :: (name.toList ++ '>' :: rest))
      = (pieces? .plain rest).map (.closing name :: ·) := by
  have hpiece := piece?_endTag hname rest
  rw [String.ofList_toList] at hpiece
  exact pieces?_cons hpiece (by simp; omega)

/-- A run of character data, if it cannot be taken for the end of a marked section. -/
theorem pieces?_run {run rest : List Char} (hne : run ≠ []) (hrun : ∀ c ∈ run, isPlain c = true)
    (hend : '>' ∉ run) (hrest : Stops isPlain rest) :
    pieces? script (run ++ rest) = (pieces? script rest).map (.text run :: ·) := by
  cases run with
  | nil => exact absurd rfl hne
  | cons c run =>
    have hc := hrun c List.mem_cons_self
    simp only [isPlain, Bool.and_eq_true, bne_iff_ne] at hc
    have htake := takeWhile_run (fun d hd => hrun d (List.mem_cons_of_mem _ hd)) hrest
    have hdrop := dropWhile_run (fun d hd => hrun d (List.mem_cons_of_mem _ hd)) hrest
    refine pieces?_cons ?_ (by simp)
    show piece? script c (run ++ rest) = _
    rw [piece?, if_neg hc.1, if_neg hc.2, htake, hdrop]
    dsimp only
    split
    · next hsome =>
      -- The end of a marked section holds a bracket, which the run does not.
      obtain ⟨⟨before, after⟩, hsplit⟩ := Option.isSome_iff_exists.mp hsome
      have hmem : '>' ∈ c :: run := by
        rw [eq_of_splitWord? hsplit]
        simp
      exact absurd hmem hend
    · rfl

end Worksheet.Xml
