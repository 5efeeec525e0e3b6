import Worksheet.Proofs.Formula.Language

/-!
# Respelled formulas

The names in the text of a formula matter only through their normal forms. If some of them are
spelled otherwise, with the same normal forms, the text falls into the same tokens but for these
names, and is read as the same formula or refused for the same reason.

* `Naming.Synonyms`: two identifiers with the same normal form.
* `Respelling`: two texts that differ in how variables are spelled.
* `Respelling.exists_scanned`: a respelled text has the same symbols but for the spelling; this
  takes that no name stands right behind a numeral, and so that the symbols have been checked.
* `parse_respelled`: what is read from respelled texts.
* `parse_identifier`, `exists_mentions_of_typed`: an identifier stands for its normal form, by
  itself and in any formula.
-/

namespace Worksheet

/-- Two identifiers with the same normal form. -/
structure Naming.Synonyms (naming : Naming) (s s' : String) : Prop where
  left : isIdentifier s = true
  right : isIdentifier s' = true
  normal : naming.normalize s = naming.normalize s'

/-- Synonyms are accepted alike. -/
theorem Naming.Synonyms.resolve? {naming : Naming} {s s' : String} (h : naming.Synonyms s s') :
    naming.resolve? s = naming.resolve? s' := by
  unfold Naming.resolve?
  rw [h.normal]

namespace Formula

open Worksheet.Expr (Symbol)
open Worksheet.Number (Numeral continues)
open Worksheet.Text (isBlank Stops stops_nil stops_cons takeWhile_of_stops dropWhile_of_stops)

/-- Two typed symbols that are the same, or variables spelled in two ways. -/
inductive SameSymbol (naming : Naming) : Symbol Term → Symbol Term → Prop
  | same (s : Symbol Term) : SameSymbol naming s s
  | variable {name name' : List Char} :
    naming.Synonyms (String.ofList name) (String.ofList name') →
    SameSymbol naming (.operand (.variable name)) (.operand (.variable name'))

/-- Two texts of which the second is the first with some of its variables spelled otherwise. The
tokens are those of the first text. -/
inductive Respelling (naming : Naming) : List Char → List Char → Prop
  | nil : Respelling naming [] []
  | keep {w rest rest' : List Char} {symbol : Option (Symbol Term)} : Longest w symbol rest →
    Respelling naming rest rest' → Respelling naming (w ++ rest) (w ++ rest')
  | variable {name name' rest rest' : List Char} :
    Longest name (some (.operand (.variable name))) rest →
    naming.Synonyms (String.ofList name) (String.ofList name') → Respelling naming rest rest' →
    Respelling naming (name ++ rest) (name' ++ rest')

/-- Two faults that are the same, or blame a variable each. -/
inductive Fault.Alike : Fault → Fault → Prop
  | same (fault : Fault) : Alike fault fault
  | variable (name name' : List Char) : Alike (.invalidVariable name) (.invalidVariable name')

variable {naming : Naming} {w rest rest' text text' : List Char} {symbol : Option (Symbol Term)}
  {symbols symbols' : List (Symbol Term)}

/-! ### Symbols -/

theorem SameSymbol.shape_eq {s s' : Symbol Term} (h : SameSymbol naming s s') :
    shape s = shape s' := by
  cases h <;> rfl

/-- A row of symbols keeps its shape when names are respelled. -/
theorem map_shape_eq (h : List.Forall₂ (SameSymbol naming) symbols symbols') :
    symbols.map shape = symbols'.map shape := by
  induction h with
  | nil => rfl
  | cons hs _ ih => rw [List.map_cons, List.map_cons, hs.shape_eq, ih]

/-- Where the one row goes on with no operand, so does the other. -/
theorem startsOperand_head (h : List.Forall₂ (SameSymbol naming) symbols symbols')
    (hhead : ∀ t ∈ symbols.head?, startsOperand t = false) :
    ∀ t ∈ symbols'.head?, startsOperand t = false := by
  cases h with
  | nil => exact hhead
  | cons hs _ =>
    rintro t ⟨⟩
    rw [← startsOperand_of_shape hs.shape_eq]
    exact hhead _ rfl

/-! ### What follows a token -/

theorem continues_of_isBlank {c : Char} (h : isBlank c = true) : continues c = false := by
  by_contra hc
  simp only [continues, Bool.not_eq_false, Bool.or_eq_true, beq_iff_eq] at hc
  rcases hc with ((hc | rfl) | rfl) | rfl
  · cases h.symm.trans (other_of_isDecimal hc).1
  · cases h
  · cases h
  · cases h

/-- What goes on with no operand continues neither a numeral nor a name. -/
theorem Scanned.stops (h : Scanned text symbols)
    (hhead : ∀ t ∈ symbols.head?, startsOperand t = false) :
    Stops continues text ∧ Stops isIdentifierPart text := by
  constructor
  · exact h.stops_of (fun c hc => continues_of_isBlank hc) (by simp [Expr.punctuation]; decide) hhead
  · refine h.stops_of (fun c hc => ?_) (by simp [Expr.punctuation]; decide) hhead
    by_contra hpart
    rw [Bool.not_eq_false] at hpart
    cases hc.symm.trans (isBlank_of_isIdentifierPart hpart)

/-- A token is the longest one in front of what does not continue it. -/
theorem Token.longest (h : Token w symbol) (hblank : symbol = none → Stops isBlank rest)
    (hoperand : ∀ s, symbol = some s → endsOperand s = true →
      Stops continues rest ∧ Stops isIdentifierPart rest) :
    Longest w symbol rest := by
  rw [longest_iff_token?]
  cases h with
  | blank hne hw => rw [token?_blank hne hw, dropWhile_of_stops (hblank rfl)]
  | opening => rfl
  | closing => rfl
  | op o => exact token?_op o rest
  | «variable» hc hcs =>
    obtain ⟨-, hstops⟩ := hoperand _ rfl rfl
    rw [token?_variable hc hcs, takeWhile_of_stops hstops, dropWhile_of_stops hstops,
      List.append_nil]
  | numeral hn =>
    obtain ⟨hstops, -⟩ := hoperand _ rfl rfl
    rw [token?_numeral hn, Numeral.scan_text_append hn hstops]
    rfl

/-- White space that is taken as long as possible does not go on. -/
theorem Longest.stops_blank (h : Longest w none rest) : Stops isBlank rest := by
  have hfound := longest_iff_token?.mp h
  cases h.token with
  | blank hne hw =>
    rw [token?_blank hne hw, Option.some.injEq, Prod.mk.injEq] at hfound
    rw [← hfound.2]
    exact Text.stops_dropWhile rest

/-- The symbols of a text are that of its first token and those of the rest. -/
theorem Scanned.exists_tail (h : Scanned text symbols) (hlongest : Longest w symbol rest)
    (htext : text = w ++ rest) :
    ∃ tail, Scanned rest tail ∧ symbols = symbol.toList ++ tail := by
  cases h with
  | nil => exact absurd (List.append_eq_nil_iff.mp htext.symm).1 hlongest.token.ne_nil
  | @cons _ _ _ tail hlongest' htail =>
    have hfound := longest_iff_token?.mp hlongest'
    rw [htext, longest_iff_token?.mp hlongest] at hfound
    cases hfound
    exact ⟨tail, htail, rfl⟩

/-! ### Respelled texts

Respelling may change the length of names, so the tokens of the two texts are compared one by one.
By the maximality of tokens, neither text can be scanned further than the other.
-/

/-- The token of another name. -/
theorem token_of_synonyms {name name' : List Char}
    (h : naming.Synonyms (String.ofList name) (String.ofList name')) :
    Token name' (some (.operand (.variable name'))) := by
  obtain ⟨c, cs, hname, hc, hcs⟩ := exists_cons_of_isIdentifier h.right
  rw [String.toList_ofList] at hname
  rw [hname]
  exact .variable hc hcs

namespace Respelling

/-- A respelled text begins with white space only if the text does. -/
theorem stops_blank (h : Respelling naming text text') (hstops : Stops isBlank text) :
    Stops isBlank text' := by
  cases h with
  | nil => exact hstops
  | keep hlongest _ =>
    obtain ⟨c, cs, rfl⟩ := List.exists_cons_of_ne_nil hlongest.token.ne_nil
    exact stops_cons (hstops c rfl)
  | «variable» _ hsynonyms _ =>
    obtain ⟨c, cs, hname, hc, -⟩ := exists_cons_of_isIdentifier hsynonyms.right
    rw [String.toList_ofList] at hname
    rw [hname]
    exact stops_cons (isBlank_of_isIdentifierPart (isIdentifierPart_of_start hc))

/-- A token in front of the one text, or another name in its place, is one in front of the other. -/
theorem longest {symbol' : Option (Symbol Term)} {w' : List Char}
    (hrest : Respelling naming rest rest') (htail : Scanned rest' symbols')
    (hsame : List.Forall₂ (SameSymbol naming) symbols symbols') (hlongest : Longest w symbol rest)
    (htoken : Token w' symbol') (hsymbol : symbol.map shape = symbol'.map shape)
    (hadjacent : Adjacent (symbol.toList ++ symbols)) : Longest w' symbol' rest' := by
  refine htoken.longest ?_ ?_
  · rintro rfl
    obtain rfl := Option.map_eq_none_iff.mp hsymbol
    exact hrest.stops_blank hlongest.stops_blank
  · rintro s' rfl hends
    obtain ⟨s, rfl, hshape⟩ := Option.map_eq_some_iff.mp hsymbol
    rw [← endsOperand_of_shape hshape] at hends
    apply htail.stops
    apply startsOperand_head hsame
    intro t ht
    exact (List.isChain_cons.mp hadjacent).1 t ht hends

/-- A respelled text has the same symbols, but for the spelling of variables. -/
theorem exists_scanned (h : Respelling naming text text') (hscanned : Scanned text symbols)
    (hadjacent : Adjacent symbols) :
    ∃ symbols', Scanned text' symbols' ∧ List.Forall₂ (SameSymbol naming) symbols symbols' := by
  induction h generalizing symbols with
  | nil =>
    cases scan_eq_ok_iff.mpr hscanned |>.symm.trans (scanFrom_nil 0)
    exact ⟨[], .nil, .nil⟩
  | @keep w rest rest' symbol hlongest hrest ih =>
    obtain ⟨tail, hrestScanned, rfl⟩ := hscanned.exists_tail hlongest rfl
    have htail : Adjacent tail := (List.isChain_append.mp hadjacent).2.1
    obtain ⟨tail', hscanned', hsame⟩ := ih hrestScanned htail
    have hlongest' := hrest.longest hscanned' hsame hlongest hlongest.token rfl hadjacent
    refine ⟨_, .cons hlongest' hscanned', List.rel_append (List.forall₂_same.mpr ?_) hsame⟩
    exact fun s _ => .same s
  | @«variable» name name' rest rest' hlongest hsynonyms hrest ih =>
    obtain ⟨tail, hrestScanned, rfl⟩ := hscanned.exists_tail hlongest rfl
    have htail : Adjacent tail := (List.isChain_append.mp hadjacent).2.1
    obtain ⟨tail', hscanned', hsame⟩ := ih hrestScanned htail
    have hlongest' := hrest.longest hscanned' hsame hlongest (token_of_synonyms hsynonyms) rfl hadjacent
    exact ⟨_, .cons hlongest' hscanned', .cons (.variable hsynonyms) hsame⟩

end Respelling

/-! ### Reading -/

/-- Symbols that differ in spelling stand for the same, or are refused alike. -/
theorem SameSymbol.resolveSymbol {s s' : Symbol Term} (h : SameSymbol naming s s') :
    EqualUpTo Fault.Alike (resolveSymbol naming s) (resolveSymbol naming s') := by
  cases h with
  | same => exact .refl .same _
  | @«variable» name name' hsynonyms =>
    refine EqualUpTo.map ?_ _
    simp only [resolve, hsynonyms.resolve?]
    cases naming.resolve? (String.ofList name') with
    | some normal => exact .ok _
    | none => exact .error (.variable name name')

/-- What is done to read a text whose symbols have been checked. -/
theorem parse_of_check {text : String} (hscan : scan text.toList = .ok symbols)
    (hcheck : check symbols = .ok ()) :
    parse naming text = (symbols.mapM (Formula.resolveSymbol naming)).map Formula.mk := by
  unfold parse
  rw [hscan]
  dsimp only [bind, Except.bind]
  rw [hcheck]
  cases symbols.mapM (Formula.resolveSymbol naming) <;> rfl

/-- Respelled texts, if the one has been scanned and its symbols checked, are read as the same
formula, or both refused. -/
theorem parse_respelled {text text' : String} (h : Respelling naming text.toList text'.toList)
    (hscan : scan text.toList = .ok symbols) (hcheck : check symbols = .ok ()) :
    EqualUpTo Fault.Alike (parse naming text) (parse naming text') := by
  have hadjacent := (adjacent_of_checkFrom (check_ok_iff.mp hcheck).2.2).1
  obtain ⟨symbols', hscanned', hsame⟩ := h.exists_scanned (scan_eq_ok_iff.mp hscan) hadjacent
  have hcheck' := check_congr (map_shape_eq hsame) hcheck
  rw [parse_of_check hscan hcheck, parse_of_check (scan_eq_ok_iff.mpr hscanned') hcheck']
  exact (EqualUpTo.mapM hsame fun _ _ => SameSymbol.resolveSymbol).map _

/-! ### Variables -/

/-- The variables of a text are identifiers. -/
theorem Scanned.isIdentifier (h : Scanned text symbols) {name : List Char}
    (hname : .operand (.variable name) ∈ symbols) :
    Worksheet.isIdentifier (String.ofList name) = true := by
  have htoken : Token name (some (.operand (.variable name))) := h.token hname
  cases htoken with
  | «variable» hc hcs =>
    unfold Worksheet.isIdentifier
    rw [String.toList_ofList]
    dsimp only
    rw [hc, Bool.true_and, List.all_eq_true]
    exact hcs

/-- An identifier is a formula by itself if it has a normal form that is accepted. -/
theorem parse_identifier (naming : Naming) {s : String} (h : isIdentifier s = true) :
    parse naming s = match naming.resolve? s with
      | some n => .ok ⟨[.operand (.variable n)]⟩
      | none => .error (.invalidVariable s.toList) := by
  obtain ⟨c, cs, hs, hc, hcs⟩ := exists_cons_of_isIdentifier h
  have hcanonical : ∀ t ∈ [Symbol.operand (Term.variable s.toList)], Canonical t := by
    intro t ht
    rw [List.mem_singleton.mp ht, hs]
    exact .variable hc hcs
  have htext : textOf [.operand (.variable s.toList)] = s.toList := List.append_nil _
  have hscan := scan_text hcanonical (List.isChain_singleton _)
  rw [htext] at hscan
  rw [parse_of_check hscan rfl, List.mapM_cons, Formula.resolveSymbol, resolve, String.ofList_toList]
  cases naming.resolve? s <;> rfl

/-- Whatever formula a name is typed in, it stands for its normal form. -/
theorem exists_mentions_of_typed {text : String} {f : Formula} (h : parse naming text = .ok f)
    (hscan : scan text.toList = .ok symbols) {name : List Char}
    (hname : .operand (.variable name) ∈ symbols) :
    ∃ n, naming.cell? (.text (String.ofList name)) = some n ∧ f.Mentions n := by
  obtain ⟨symbols', hformula, hsymbols⟩ := exists_isFormula_of_parse h
  cases hscan.symm.trans (scan_eq_ok_iff.mpr hformula.scanned)
  obtain ⟨hidentifier, hvalid⟩ := hformula.accepted _ hname
  refine ⟨naming.normalize (String.ofList name), ?_, ?_⟩
  · rw [Naming.cell?, if_pos (hformula.scanned.isIdentifier hname)]
    exact resolve?_eq_some.mpr ⟨rfl, hidentifier, hvalid⟩
  · rw [Mentions, hsymbols]
    exact List.mem_map_of_mem hname

end Formula

end Worksheet
