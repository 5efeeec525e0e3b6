import Worksheet.Formula.Basic
import Worksheet.Proofs.Formula.Evaluation
import Worksheet.Proofs.Number.Text
import Worksheet.Proofs.Result

/-!
# Canonical text

The canonical text of a formula is read as the same formula: its symbols are found again one by one,
they still stand in the order of an expression, and each stands for what it was written for.

* `Canonical`, `Adjacent`: symbols as canonical text has them, and rows in which they can be told
  apart.
* `scan_text`: such a row is found again in its text.
* `parse_text_of_fixed`: a formula that has been read is read again from its canonical text.
* `eq_of_text_eq`: formulas with one canonical text are one formula.
-/

namespace Worksheet.Formula

open Worksheet.Expr (Op Symbol)
open Worksheet.Number (Numeral continues)
open Worksheet.Text (isBlank isDecimal Stops stops_nil stops_cons takeWhile_run dropWhile_run)

/-! ### Characters

The kinds of characters exclude each other: what begins or goes on with a name or a numeral is
neither blank nor an operator.
-/

theorem isIdentifierPart_of_start {c : Char} (h : isIdentifierStart c = true) :
    isIdentifierPart c = true := by
  simp only [isIdentifierStart, isIdentifierPart, Char.isAlphanum, Bool.or_eq_true] at *
  tauto

/-- Where the letters, the digits and the underscore stand. -/
theorem code_of_isIdentifierPart {c : Char} (h : isIdentifierPart c = true) :
    48 ≤ c.toNat ∧ c.toNat ≤ 57 ∨ 65 ≤ c.toNat ∧ c.toNat ≤ 90 ∨ c.toNat = 95
      ∨ 97 ≤ c.toNat ∧ c.toNat ≤ 122 := by
  simp only [isIdentifierPart, Char.isAlphanum, Char.isAlpha, Char.isUpper, Char.isLower,
    Char.isDigit, Bool.or_eq_true, Bool.and_eq_true, decide_eq_true_eq, UInt32.le_iff_toNat_le,
    ge_iff_le, beq_iff_eq] at h
  rcases h with ((h | h) | h) | rfl
  · exact .inr (.inl h)
  · exact .inr (.inr (.inr h))
  · exact .inl h
  · exact .inr (.inr (.inl rfl))

theorem isBlank_of_isIdentifierPart {c : Char} (h : isIdentifierPart c = true) :
    isBlank c = false := by
  have hcode := code_of_isIdentifierPart h
  simp [isBlank]
  omega

/-- No letter, digit or underscore is a symbol by itself. -/
theorem ofChar?_of_isIdentifierPart {α : Type} {c : Char} (h : isIdentifierPart c = true) :
    Symbol.ofChar? (α := α) c = none := by
  unfold Symbol.ofChar? Op.ofChar?
  split
  · cases h
  · cases h
  · split <;> first | rfl | cases h

/-- No name begins with a digit. -/
theorem not_isIdentifierStart_of_isDigit {c : Char} (h : c.isDigit = true) :
    isIdentifierStart c = false := by
  have hpart : isIdentifierPart c = true := by simp [isIdentifierPart, Char.isAlphanum, h]
  have hcode := code_of_isIdentifierPart hpart
  simp only [Char.isDigit, Bool.and_eq_true, decide_eq_true_eq, UInt32.le_iff_toNat_le,
    ge_iff_le] at h
  by_contra hstart
  simp only [isIdentifierStart, Char.isAlpha, Char.isUpper, Char.isLower, Bool.not_eq_false,
    Bool.or_eq_true, Bool.and_eq_true, decide_eq_true_eq, UInt32.le_iff_toNat_le, ge_iff_le,
    beq_iff_eq] at hstart
  have hlow : c.val.toNat ≤ 57 := h.2
  rcases hstart with (⟨hstart, -⟩ | ⟨hstart, -⟩) | rfl
  · exact absurd (Nat.le_trans hstart hlow) (by decide)
  · exact absurd (Nat.le_trans hstart hlow) (by decide)
  · exact absurd hlow (by decide)

/-- What an identifier is made of. -/
theorem exists_cons_of_isIdentifier {name : String} (h : isIdentifier name = true) :
    ∃ c cs, name.toList = c :: cs ∧ isIdentifierStart c = true
      ∧ ∀ d ∈ cs, isIdentifierPart d = true := by
  unfold isIdentifier at h
  split at h
  · cases h
  · next c cs hname =>
    rw [Bool.and_eq_true, List.all_eq_true] at h
    exact ⟨c, cs, hname, h.1, h.2⟩

theorem isBlank_char (o : Op) : isBlank o.char = false := by
  cases o <;> decide

theorem ofChar?_char (o : Op) : Symbol.ofChar? (α := Term) o.char = some (.op o) := by
  cases o <;> rfl

/-! ### Symbols

The text of a formula is written without white space. It is scanned into the same symbols, because
no two operands stand side by side, and next to an operand every other symbol ends it.
-/

/-- A typed symbol as canonical text has it. -/
inductive Canonical : Symbol Term → Prop
  | opening : Canonical .opening
  | closing : Canonical .closing
  | op (o : Op) : Canonical (.op o)
  | variable {c : Char} {cs : List Char} : isIdentifierStart c = true →
    (∀ d ∈ cs, isIdentifierPart d = true) → Canonical (.operand (.variable (c :: cs)))
  | numeral {n : Numeral} : n.Plain → Canonical (.operand (.numeral n))

/-- A row of symbols in which no operand begins right behind another. -/
def Adjacent (symbols : List (Symbol Term)) : Prop :=
  symbols.IsChain fun s t => endsOperand s = true → startsOperand t = false

/-- The text of some symbols. -/
def textOf (symbols : List (Symbol Term)) : List Char := symbols.flatMap source

/-- Behind an operand the text cannot go on with it. -/
theorem stops_textOf {symbols : List (Symbol Term)}
    (h : ∀ t ∈ symbols.head?, startsOperand t = false) :
    Stops continues (textOf symbols) ∧ Stops isIdentifierPart (textOf symbols) := by
  cases symbols with
  | nil => exact ⟨stops_nil, stops_nil⟩
  | cons t symbols =>
    have ht := h t rfl
    cases t with
    | opening => cases ht
    | operand a => cases ht
    | closing => exact ⟨stops_cons (by decide), stops_cons (by decide)⟩
    | op o => cases o <;> exact ⟨stops_cons (by decide), stops_cons (by decide)⟩

/-- A canonical symbol is found in front of what does not continue it. -/
theorem next_of_canonical {symbol : Symbol Term} (h : Canonical symbol) {rest : List Char}
    (hrest : endsOperand symbol = true → Stops continues rest ∧ Stops isIdentifierPart rest) :
    ∃ c cs, source symbol ++ rest = c :: cs ∧ next c cs = some (some symbol, rest) := by
  cases h with
  | opening => exact ⟨'(', rest, rfl, rfl⟩
  | closing => exact ⟨')', rest, rfl, rfl⟩
  | op o =>
    refine ⟨o.char, rest, rfl, ?_⟩
    rw [next, if_neg (by simp [isBlank_char]), ofChar?_char]
  | @«variable» c cs hc hcs =>
    have hpart := isIdentifierPart_of_start hc
    obtain ⟨-, hstops⟩ := hrest rfl
    refine ⟨c, cs ++ rest, rfl, ?_⟩
    rw [next, if_neg (by simp [isBlank_of_isIdentifierPart hpart]),
      ofChar?_of_isIdentifierPart hpart]
    simp only [if_pos hc, takeWhile_run hcs hstops, dropWhile_run hcs hstops]
  | @numeral n hn =>
    obtain ⟨hstops, -⟩ := hrest rfl
    have hscan := Numeral.scan_text_append hn.formed hstops
    -- A plain numeral begins with a digit, and so with neither a symbol nor a name.
    obtain ⟨c, cs, htext, hc⟩ := hn.exists_cons
    have hpart : isIdentifierPart c = true := by simp [isIdentifierPart, Char.isAlphanum, hc]
    rw [htext] at hscan
    refine ⟨c, cs ++ rest, by rw [source, Symbol.text, Term.text, htext]; rfl, ?_⟩
    rw [next, if_neg (by simp [isBlank_of_isIdentifierPart hpart]),
      ofChar?_of_isIdentifierPart hpart]
    simp only [not_isIdentifierStart_of_isDigit hc, ← List.cons_append, hscan]
    simp

/-- Canonical symbols are scanned as they are written. -/
theorem scanFrom_text (total : Nat) {symbols : List (Symbol Term)}
    (h : ∀ s ∈ symbols, Canonical s) (hadjacent : Adjacent symbols) :
    scanFrom total (textOf symbols) = .ok symbols := by
  induction symbols with
  | nil => rw [textOf, List.flatMap_nil, scanFrom_nil]
  | cons s symbols ih =>
    have hrest : endsOperand s = true →
        Stops continues (textOf symbols) ∧ Stops isIdentifierPart (textOf symbols) := by
      intro hs
      apply stops_textOf
      intro t ht
      exact (List.isChain_cons.mp hadjacent).1 t ht hs
    obtain ⟨c, cs, htext, hnext⟩ := next_of_canonical (h s List.mem_cons_self) hrest
    have ih := ih (fun t ht => h t (List.mem_cons_of_mem _ ht)) (List.isChain_cons.mp hadjacent).2
    rw [textOf, List.flatMap_cons]
    show scanFrom total (source s ++ textOf symbols) = _
    rw [htext, scanFrom_cons hnext, ih]
    rfl

/-- Canonical symbols that can be told apart are found again in their text. -/
theorem scan_text {symbols : List (Symbol Term)} (h : ∀ s ∈ symbols, Canonical s)
    (hadjacent : Adjacent symbols) : scan (textOf symbols) = .ok symbols :=
  scanFrom_text _ h hadjacent

/-! ### Order

The check looks at symbols by their shape only, so it does not tell symbols apart that differ in
their operands.
-/

/-- A symbol without its operand. -/
def shape {α : Type} (symbol : Symbol α) : Symbol Unit := symbol.map fun _ => ()

/-- Whether an operand begins is a matter of shape. -/
theorem startsOperand_of_shape {s t : Symbol Term} (h : shape s = shape t) :
    startsOperand s = startsOperand t := by
  cases s <;> cases t <;> first | rfl | cases h

theorem endsOperand_of_shape {s t : Symbol Term} (h : shape s = shape t) :
    endsOperand s = endsOperand t := by
  cases s <;> cases t <;> first | rfl | cases h

/-- How many parentheses are open behind a symbol. -/
def deepen (depth : Nat) : Symbol Term → Nat
  | .opening => depth + 1
  | .closing => depth - 1
  | _ => depth

theorem deepen_of_shape {s t : Symbol Term} (h : shape s = shape t) (depth : Nat) :
    deepen depth s = deepen depth t := by
  cases s <;> cases t <;> first | rfl | cases h

/-- One step of the check. -/
theorem checkFrom_cons {depth : Nat} {previous : Option (Symbol Term)} {s : Symbol Term}
    {symbols : List (Symbol Term)} :
    checkFrom depth previous (s :: symbols)
      = if s = .closing ∧ depth = 0 then .error .unexpectedClosing
        else if previous.any (!endsOperand ·) ∧ !startsOperand s then
          .error (.expectedOperand (source s))
        else if previous.any endsOperand ∧ startsOperand s then
          .error (.expectedOperator (source s))
        else checkFrom (deepen depth s) (some s) symbols := by
  cases s <;> simp only [checkFrom, deepen]

/-- What is checked of one symbol. -/
theorem checkFrom_cons_iff {depth : Nat} {previous : Option (Symbol Term)} {s : Symbol Term}
    {symbols : List (Symbol Term)} :
    checkFrom depth previous (s :: symbols) = .ok ()
      ↔ ¬ (s = .closing ∧ depth = 0)
        ∧ ¬ (previous.any (!endsOperand ·) = true ∧ (!startsOperand s) = true)
        ∧ ¬ (previous.any endsOperand = true ∧ startsOperand s = true)
        ∧ checkFrom (deepen depth s) (some s) symbols = .ok () := by
  rw [checkFrom_cons]
  split
  · next h₁ => simp [h₁]
  · next h₁ =>
    split
    · next h₂ => simp [h₂]
    · next h₂ =>
      split
      · next h₃ => simp [h₃]
      · next h₃ => exact ⟨fun h => ⟨h₁, h₂, h₃, h⟩, fun h => h.2.2.2⟩

/-- Symbols that are checked stand apart. -/
theorem adjacent_of_checkFrom {symbols : List (Symbol Term)} {depth : Nat}
    {previous : Option (Symbol Term)} (h : checkFrom depth previous symbols = .ok ()) :
    Adjacent symbols ∧ ∀ p ∈ previous, ∀ t ∈ symbols.head?, endsOperand p = true →
      startsOperand t = false := by
  induction symbols generalizing depth previous with
  | nil => exact ⟨List.isChain_nil, by simp⟩
  | cons s symbols ih =>
    obtain ⟨-, -, hoperator, hrest⟩ := checkFrom_cons_iff.mp h
    obtain ⟨hchain, hhead⟩ := ih hrest
    refine ⟨List.isChain_cons.mpr ⟨fun t ht => hhead s rfl t ht, hchain⟩, ?_⟩
    rintro p rfl t ht hp
    cases ht
    by_contra hs
    exact hoperator ⟨hp, by simpa using hs⟩

/-- The order of symbols does not depend on their operands. -/
theorem checkFrom_congr {symbols symbols' : List (Symbol Term)}
    (h : symbols.map shape = symbols'.map shape) {depth : Nat}
    {previous previous' : Option (Symbol Term)} (hprevious : previous.map shape = previous'.map shape)
    (hcheck : checkFrom depth previous symbols = .ok ()) :
    checkFrom depth previous' symbols' = .ok () := by
  induction symbols generalizing symbols' depth previous previous' with
  | nil =>
    cases symbols' with
    | nil =>
      rw [checkFrom] at hcheck ⊢
      exact hcheck
    | cons s' symbols' => cases h
  | cons s symbols ih =>
    cases symbols' with
    | nil => cases h
    | cons s' symbols' =>
      rw [List.map_cons, List.map_cons, List.cons.injEq] at h
      obtain ⟨hs, hsymbols⟩ := h
      have hclosing : s = .closing ↔ s' = .closing := by
        cases s <;> cases s' <;> first | simp; done | cases hs
      have hends : previous.any endsOperand = previous'.any endsOperand
          ∧ previous.any (!endsOperand ·) = previous'.any (!endsOperand ·) := by
        cases previous with
        | none =>
          cases previous' with
          | none => exact ⟨rfl, rfl⟩
          | some p' => cases hprevious
        | some p =>
          cases previous' with
          | none => cases hprevious
          | some p' => simp [endsOperand_of_shape (Option.some.inj hprevious)]
      rw [checkFrom_cons_iff, hclosing, hends.1, hends.2, startsOperand_of_shape hs,
        deepen_of_shape hs] at hcheck
      obtain ⟨h₁, h₂, h₃, hrest⟩ := hcheck
      have hlast : (some s).map shape = (some s').map shape := congrArg some hs
      exact checkFrom_cons_iff.mpr ⟨h₁, h₂, h₃, ih hsymbols hlast hrest⟩

/-- What passes the check begins and ends with an operand. -/
theorem check_ok_iff {symbols : List (Symbol Term)} :
    check symbols = .ok ()
      ↔ (∃ first ∈ symbols.head?, startsOperand first = true)
        ∧ (∃ last ∈ symbols.getLast?, endsOperand last = true)
        ∧ checkFrom 0 none symbols = .ok () := by
  unfold check
  cases symbols with
  | nil => simp
  | cons s symbols =>
    rw [List.head?_cons, List.getLast?_eq_getLast_of_ne_nil (List.cons_ne_nil s symbols)]
    dsimp only
    split
    · next hfirst => simp_all
    · next hfirst =>
      split
      · next hlast => simp_all
      · next hlast => simp_all

/-- What passes the check passes it with other operands. -/
theorem check_congr {symbols symbols' : List (Symbol Term)}
    (h : symbols.map shape = symbols'.map shape) (hcheck : check symbols = .ok ()) :
    check symbols' = .ok () := by
  obtain ⟨⟨first, hfirst, hstarts⟩, ⟨last, hlast, hends⟩, hcheck⟩ := check_ok_iff.mp hcheck
  have hhead := congrArg List.head? h
  have hend := congrArg List.getLast? h
  rw [List.head?_map, List.head?_map, hfirst] at hhead
  rw [List.getLast?_map, List.getLast?_map, hlast] at hend
  obtain ⟨first', hfirst', hshape⟩ := Option.map_eq_some_iff.mp hhead.symm
  obtain ⟨last', hlast', hshape'⟩ := Option.map_eq_some_iff.mp hend.symm
  refine check_ok_iff.mpr ⟨⟨first', hfirst', ?_⟩, ⟨last', hlast', ?_⟩, checkFrom_congr h rfl hcheck⟩
  · rwa [startsOperand_of_shape hshape]
  · rwa [endsOperand_of_shape hshape']

/-! ### Operands -/

/-- Every normal form is its own normal form. -/
def Idempotent (naming : Naming) : Prop :=
  ∀ name, naming.normalize (naming.normalize name) = naming.normalize name

/-- When a name is accepted, and as what. -/
theorem resolve?_eq_some {naming : Naming} {name normal : String} :
    naming.resolve? name = some normal
      ↔ naming.normalize name = normal ∧ isIdentifier normal = true
        ∧ naming.isValid normal = true := by
  unfold Naming.resolve?
  dsimp only
  split
  · next hvalid =>
    rw [Bool.and_eq_true] at hvalid
    constructor
    · rintro ⟨⟩
      exact ⟨rfl, hvalid⟩
    · rintro ⟨rfl, -⟩
      rfl
  · next hinvalid =>
    rw [Bool.and_eq_true] at hinvalid
    refine iff_of_false (by simp) ?_
    rintro ⟨rfl, hvalid⟩
    exact hinvalid hvalid

/-- Under an idempotent naming a normal form is its own. -/
theorem resolve?_resolve? {naming : Naming} (h : Idempotent naming) {name normal : String}
    (hname : naming.resolve? name = some normal) :
    isIdentifier normal = true ∧ naming.resolve? normal = some normal := by
  obtain ⟨rfl, hvalid⟩ := resolve?_eq_some.mp hname
  exact ⟨hvalid.1, resolve?_eq_some.mpr ⟨h name, hvalid⟩⟩

/-- A number of a formula is finite and not negative, and a variable is in normal form. -/
theorem resolve_ok {naming : Naming} {t : Term} {a : Atom} (h : resolve naming t = .ok a) :
    (∃ x, a = .number x ∧ Number.isFinite x = true ∧ Number.isNegative x = false)
      ∨ ∃ name normal, naming.resolve? name = some normal ∧ a = .variable normal := by
  cases t with
  | «variable» name =>
    simp only [resolve] at h
    split at h
    · next normal hname =>
      cases h
      exact .inr ⟨_, normal, hname, rfl⟩
    · cases h
  | numeral n =>
    simp only [resolve] at h
    split at h
    · next hfinite =>
      cases h
      exact .inl ⟨_, rfl, hfinite,
        Number.isNegative_ofMagnitude false (Number.Decimal.nearest_le_infinity _)⟩
    · cases h

/-- What a symbol stands for is written as a canonical symbol, which stands for the same under any
naming that takes the variable to itself. -/
theorem exists_canonical {naming naming' : Naming} {s : Symbol Term} {a : Symbol Atom}
    (h : resolveSymbol naming s = .ok a)
    (hfixed : ∀ name, a = .operand (.variable name) → naming'.resolve? name = some name) :
    ∃ t, Canonical t ∧ source t = a.text Atom.text ∧ resolveSymbol naming' t = .ok a
      ∧ shape t = shape s := by
  cases s with
  | opening =>
    cases h
    exact ⟨.opening, .opening, rfl, rfl, rfl⟩
  | closing =>
    cases h
    exact ⟨.closing, .closing, rfl, rfl, rfl⟩
  | op o =>
    cases h
    exact ⟨.op o, .op o, rfl, rfl, rfl⟩
  | operand t =>
    obtain ⟨atom, hresolve, rfl⟩ := map_eq_ok.mp h
    rcases resolve_ok hresolve with ⟨x, rfl, hfinite, hsign⟩ | ⟨name, normal, hname, rfl⟩
    · obtain ⟨n, hn, hvalue, htext⟩ := Number.exists_numeral_render hfinite
      rw [hsign] at hvalue
      rw [hsign, if_neg (by decide)] at htext
      refine ⟨.operand (.numeral n), .numeral hn, htext.symm, ?_, rfl⟩
      simp [resolveSymbol, resolve, hvalue, hfinite, Except.map]
    · have hsame := hfixed normal rfl
      refine ⟨.operand (.variable normal.toList), ?_, rfl, ?_, rfl⟩
      · obtain ⟨c, cs, hcs, hstart, hparts⟩ :=
          exists_cons_of_isIdentifier (resolve?_eq_some.mp hname).2.1
        rw [hcs]
        exact .variable hstart hparts
      · simp [resolveSymbol, resolve, hsame, Except.map]

/-- The same for a row of symbols. -/
theorem exists_canonicals {naming naming' : Naming} {symbols : List (Symbol Term)}
    {atoms : List (Symbol Atom)} (h : symbols.mapM (resolveSymbol naming) = .ok atoms)
    (hfixed : ∀ name, .operand (.variable name) ∈ atoms → naming'.resolve? name = some name) :
    ∃ ts, (∀ t ∈ ts, Canonical t) ∧ textOf ts = atoms.flatMap (Symbol.text Atom.text)
      ∧ ts.mapM (resolveSymbol naming') = .ok atoms ∧ ts.map shape = symbols.map shape := by
  induction symbols generalizing atoms with
  | nil =>
    cases h
    exact ⟨[], by simp, rfl, rfl, rfl⟩
  | cons s symbols ih =>
    simp only [List.mapM_cons, bind_eq_ok] at h
    obtain ⟨a, hs, rest, hsymbols, hpure⟩ := h
    cases hpure
    have hfirst : ∀ name, a = .operand (.variable name) → naming'.resolve? name = some name := by
      rintro name rfl
      exact hfixed name List.mem_cons_self
    obtain ⟨t, ht, htext, hresolve, hshape⟩ := exists_canonical hs hfirst
    obtain ⟨ts, hts, htexts, hresolves, hshapes⟩ := ih hsymbols
      fun name hname => hfixed name (List.mem_cons_of_mem _ hname)
    refine ⟨t :: ts, ?_, ?_, ?_, ?_⟩
    · intro u hu
      rcases List.mem_cons.mp hu with rfl | hu
      · exact ht
      · exact hts u hu
    · rw [textOf] at htexts
      rw [textOf, List.flatMap_cons, List.flatMap_cons, htext, htexts]
    · rw [List.mapM_cons, hresolve, hresolves]
      rfl
    · rw [List.map_cons, List.map_cons, hshape, hshapes]

/-- A variable that stands in the row has been taken from a name that was typed. -/
theorem exists_resolve?_of_mem {naming : Naming} {symbols : List (Symbol Term)}
    {atoms : List (Symbol Atom)} (h : symbols.mapM (resolveSymbol naming) = .ok atoms)
    {name : String} (hname : .operand (.variable name) ∈ atoms) :
    ∃ typed, naming.resolve? typed = some name := by
  induction symbols generalizing atoms with
  | nil =>
    cases h
    cases hname
  | cons s symbols ih =>
    simp only [List.mapM_cons, bind_eq_ok] at h
    obtain ⟨a, hs, rest, hsymbols, hpure⟩ := h
    cases hpure
    rcases List.mem_cons.mp hname with rfl | hname
    · cases s with
      | operand t =>
        obtain ⟨atom, hresolve, ⟨⟩⟩ := map_eq_ok.mp hs
        rcases resolve_ok hresolve with ⟨x, ⟨⟩, -⟩ | ⟨typed, normal, hnormal, ⟨⟩⟩
        exact ⟨typed, hnormal⟩
      | opening => cases hs
      | closing => cases hs
      | op o => cases hs
    · exact ih hsymbols hname

/-! ### Formulas

A formula is written from its symbols, and is read again from what is written. How much of the
naming has to be the same for that is the difference between the results.
-/

/-- What is done to read a formula. -/
theorem parse_eq_ok {naming : Naming} {text : String} {f : Formula} :
    parse naming text = .ok f ↔ ∃ symbols, scan text.toList = .ok symbols
      ∧ check symbols = .ok () ∧ symbols.mapM (resolveSymbol naming) = .ok f.symbols := by
  simp only [parse, bind_eq_ok]
  constructor
  · rintro ⟨symbols, hscan, ⟨⟩, hcheck, atoms, hresolve, hpure⟩
    cases hpure
    exact ⟨symbols, hscan, hcheck, hresolve⟩
  · rintro ⟨symbols, hscan, hcheck, hresolve⟩
    exact ⟨symbols, hscan, (), hcheck, f.symbols, hresolve, rfl⟩

/-- The variables of a formula are identifiers that have been accepted. -/
theorem valid_of_mentions {naming : Naming} {text : String} {f : Formula}
    (h : parse naming text = .ok f) {name : String} (hname : f.Mentions name) :
    isIdentifier name = true ∧ naming.isValid name = true := by
  obtain ⟨symbols, -, -, hresolve⟩ := parse_eq_ok.mp h
  obtain ⟨typed, htyped⟩ := exists_resolve?_of_mem hresolve hname
  exact (resolve?_eq_some.mp htyped).2

/-- A formula is read again from its canonical text, under any naming that takes its variables to
themselves. -/
theorem parse_text_of_fixed {naming naming' : Naming} {text : String} {f : Formula}
    (h : parse naming text = .ok f)
    (hfixed : ∀ name, f.Mentions name → naming'.resolve? name = some name) :
    parse naming' f.text = .ok f := by
  obtain ⟨symbols, -, hcheck, hresolve⟩ := parse_eq_ok.mp h
  -- The canonical symbols have the shapes of those that were read, so they pass the same checks.
  obtain ⟨ts, hts, htext, hresolves, hshapes⟩ := exists_canonicals hresolve hfixed
  have hchecks := check_congr hshapes.symm hcheck
  have hadjacent := (adjacent_of_checkFrom (check_ok_iff.mp hchecks).2.2).1
  refine parse_eq_ok.mpr ⟨ts, ?_, hchecks, hresolves⟩
  rw [Formula.text, String.toList_ofList, ← htext]
  exact scan_text hts hadjacent

/-- A formula is read again from its canonical text if all normal forms are their own. -/
theorem parse_text {naming : Naming} (hnaming : Idempotent naming) {text : String} {f : Formula}
    (h : parse naming text = .ok f) : parse naming f.text = .ok f := by
  refine parse_text_of_fixed h ?_
  intro name hname
  obtain ⟨symbols, -, -, hresolve⟩ := parse_eq_ok.mp h
  obtain ⟨typed, htyped⟩ := exists_resolve?_of_mem hresolve hname
  exact (resolve?_resolve? hnaming htyped).2

/-- With no sheet to tell, identifiers stand for themselves, and so every canonical text is read as
the formula that it is of. -/
theorem parse_text_anyName {naming : Naming} {text : String} {f : Formula}
    (h : parse naming text = .ok f) : parse anyName f.text = .ok f :=
  parse_text_of_fixed h fun _ hname =>
    resolve?_eq_some.mpr ⟨rfl, (valid_of_mentions h hname).1, rfl⟩

/-- Formulas with one canonical text are one formula. -/
theorem eq_of_text_eq {naming naming' : Naming} {text text' : String} {f f' : Formula}
    (h : parse naming text = .ok f) (h' : parse naming' text' = .ok f') (heq : f'.text = f.text) :
    f' = f := by
  have hread := parse_text_anyName h'
  rw [heq, parse_text_anyName h] at hread
  exact (Except.ok.inj hread).symm

/-- Canonical text is faithful: a formula that has been read, under whatever naming, is read again
from its text when each identifier stands for itself, and under the naming that it was read under, if
that leaves its variables as they are. So formulas with the same text have the same symbols and
variables, and the same outcome whatever is found for the variables. -/
theorem text_faithful {naming : Naming} {text : String} {f : Formula}
    (h : parse naming text = .ok f) :
    parse anyName f.text = .ok f
      ∧ ((∀ name ∈ f.reads, naming.normalize name = name) → parse naming f.text = .ok f)
      ∧ ∀ (naming' : Naming) (text' : String) (f' : Formula), parse naming' text' = .ok f' →
          f'.text = f.text →
          f'.tokens = f.tokens ∧ f'.reads = f.reads
            ∧ ∀ (m : Type → Type) [Monad m] (ε : Type) (is : ε → Kind → Bool)
                (lookup : String → ExceptT ε m Float),
                f'.evaluateWith is lookup = f.evaluateWith is lookup := by
  refine ⟨parse_text_anyName h, ?_, ?_⟩
  · intro hnaming
    refine parse_text_of_fixed h fun name hname => resolve?_eq_some.mpr ?_
    exact ⟨hnaming name (mem_reads.mpr hname), valid_of_mentions h hname⟩
  · intro naming' text' f' h' heq
    obtain rfl := eq_of_text_eq h h' heq
    exact ⟨rfl, rfl, fun _ _ _ _ _ => rfl⟩

/-- Normal forms in capitals, and a number whose text has an exponent with a sign. -/
theorem text_faithful_exponent :
    ∃ f, parse ⟨String.toUpper, isCellName⟩ " e5 - 1e22" = .ok f ∧ f.text = "E5-1e+22"
      ∧ parse anyName "E5-1e+22" = .ok f := by
  have hle := Number.Decimal.nearest_le_infinity ⟨1, 22⟩
  have hmagnitude := Number.magnitude_ofMagnitude false hle
  have hsign := Number.isNegative_ofMagnitude false hle
  have hfinite : Number.isFinite (Number.ofDecimal false ⟨1, 22⟩) = true := by
    rw [Number.isFinite, Number.ofDecimal, hmagnitude]
    decide +kernel
  have hrender : Number.render [] (Number.ofDecimal false ⟨1, 22⟩) = "1e+22".toList := by
    rw [Number.render, Number.ofDecimal, hmagnitude, hsign]
    decide +kernel
  have hparse : parse ⟨String.toUpper, isCellName⟩ " e5 - 1e22"
      = .ok ⟨[.operand (.variable "E5"), .op .sub,
          .operand (.number (Number.ofDecimal false ⟨1, 22⟩))]⟩ := by
    have hscan : scan " e5 - 1e22".toList = .ok [.operand (.variable ['e', '5']), .op .sub,
        .operand (.numeral ⟨['1'], [], [], some ⟨'e', [], ['2', '2']⟩⟩)] := by cbv
    have hname : (⟨String.toUpper, isCellName⟩ : Naming).resolve? "e5" = some "E5" := by cbv
    have hdecimal : Numeral.decimal ⟨['1'], [], [], some ⟨'e', [], ['2', '2']⟩⟩ = ⟨1, 22⟩ := by
      decide
    refine parse_eq_ok.mpr ⟨_, hscan, by decide, ?_⟩
    simp [List.mapM_cons, resolveSymbol, resolve, hname, hdecimal, hfinite, Except.map]
    rfl
  have htext : Formula.text ⟨[.operand (.variable "E5"), .op .sub,
      .operand (.number (Number.ofDecimal false ⟨1, 22⟩))]⟩ = "E5-1e+22" := by
    rw [Formula.text]
    simp only [List.flatMap_cons, Expr.Symbol.text, Atom.text, hrender]
    rfl
  exact ⟨_, hparse, htext, htext ▸ (text_faithful hparse).1⟩

end Worksheet.Formula
