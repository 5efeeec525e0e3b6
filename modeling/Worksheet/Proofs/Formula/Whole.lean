import Worksheet.Proofs.Expr.Fragment
import Worksheet.Proofs.Expr.Whole
import Worksheet.Proofs.Formula.Outcome

/-!
# Formulas over whole numbers

The text of a formula may also be evaluated over whole numbers, if its numerals are plain digits and
its variables are letters followed by digits. It is then cut into the same tokens, though it is cut in
another way, and comes to the value of the same phrase.

* `Term.IsWhole`: the operands that have a meaning over whole numbers.
* `fragments_of_scanned`: the fragments of the text of a formula are its tokens.
* `Term.Finds`: what an operand stands for over whole numbers.
* `evaluate_parsed`: what the text of a formula comes to over whole numbers.
-/

namespace Worksheet.Formula

open Worksheet.Expr (IsWord Phrase Separated Symbol fragments isPlain punctuation)
open Worksheet.Expr.Integer (Computes Outcomes Yields answer ofDigits)
open Worksheet.Number (Numeral)
open Worksheet.Text (Stops isBlank stops_cons stops_nil)

variable {text : List Char} {symbols : List (Symbol Term)} {t : Term}

/-- A numeral of plain digits that are not too many, or a variable of letters followed by digits. -/
def Term.IsWhole : Term → Prop
  | .variable name => isCellName (String.ofList name) = true
  | .numeral n => n.text.all Char.isDigit = true ∧ n.text.length ≤ Expr.Integer.maxDigits

/-! ### Tokens and fragments

The two scanners cut a text in different ways: one into the longest tokens, the other at marks and
white space. On formulas over whole numbers they cut it at the same places.
-/

/-- The characters of a whole operand are those of names. -/
theorem Term.IsWhole.isIdentifierPart (h : t.IsWhole) {w : List Char}
    (htoken : Token w (some (.operand t))) : ∀ c ∈ t.text, Worksheet.isIdentifierPart c = true := by
  intro c hc
  cases htoken with
  | «variable» hstart hpart =>
    rcases List.mem_cons.mp hc with rfl | hc
    · exact isIdentifierPart_of_start hstart
    · exact hpart c hc
  | numeral _ =>
    have hdigit := List.all_eq_true.mp h.1 c hc
    simp [Worksheet.isIdentifierPart, Char.isAlphanum, hdigit]

theorem isPlain_of_isIdentifierPart {c : Char} (h : isIdentifierPart c = true) :
    isPlain c = true := by
  simp [isPlain, Expr.isPunctuation, ofChar?_of_isIdentifierPart h, isBlank_of_isIdentifierPart h]

/-- A whole operand is a word. -/
theorem Term.IsWhole.isWord (h : t.IsWhole) (htoken : Token t.text (some (.operand t))) :
    IsWord t.text :=
  Expr.isWord_iff.mpr ⟨htoken.ne_nil, fun c hc =>
    isPlain_of_isIdentifierPart (h.isIdentifierPart htoken c hc)⟩

/-- Where no operand may begin, no word goes on. -/
theorem Scanned.stops_isPlain (h : Scanned text symbols) (hseparated : Separated true symbols) :
    Stops isPlain text := by
  apply h.stops_of
  · intro c hc
    simp [isPlain, hc]
  · intro c hc
    simp [isPlain, Expr.isPunctuation_iff.mpr hc]
  · intro s hs
    cases symbols with
    | nil => cases hs
    | cons s' symbols =>
      cases hs
      cases s with
      | opening => cases hseparated.1
      | operand t => cases hseparated.1
      | _ => rfl

/-- A parenthesis or operator in front is a fragment. -/
theorem fragments_cons {c : Char} (hc : c ∈ punctuation) (rest : List Char) :
    fragments (c :: rest) = [c] :: fragments rest :=
  Expr.fragments_append_punctuation (Expr.isPunctuation_iff.mpr hc)
    (Expr.isBlank_of_mem_punctuation hc) [] rest

/-- The fragments of a text are its tokens, if no operand begins where another has just ended. -/
theorem fragments_of_scanned {ended : Bool} (h : Scanned text symbols)
    (hseparated : Separated ended symbols) (hwhole : ∀ t, .operand t ∈ symbols → t.IsWhole) :
    fragments text = symbols.map source := by
  induction h generalizing ended with
  | nil => rfl
  | @cons w rest symbol symbols hlongest hrest ih =>
    have htail : ∀ t, .operand t ∈ symbols → t.IsWhole := fun t ht =>
      hwhole t (List.mem_append_right _ ht)
    -- Behind an operand none begins, so the word ends where the token does.
    have hword : ∀ t, symbol = some (.operand t) → w = t.text → Separated true symbols →
        fragments (w ++ rest) = w :: symbols.map source := by
      rintro t rfl rfl hseparated
      have hword := (hwhole t List.mem_cons_self).isWord hlongest.token
      rw [Expr.fragments_word_append hword (hrest.stops_isPlain hseparated), ih hseparated htail]
    cases hlongest.token with
    | blank _ hw => rw [Expr.fragments_blank_append hw, ih hseparated htail]; rfl
    | opening =>
      rw [List.singleton_append, fragments_cons (by simp [punctuation]), ih hseparated.2 htail]
      rfl
    | closing =>
      rw [List.singleton_append, fragments_cons (by simp [punctuation]), ih hseparated htail]
      rfl
    | op o =>
      rw [List.singleton_append, fragments_cons (Expr.char_mem_punctuation o), ih hseparated htail]
      rfl
    | «variable» _ _ => exact hword _ rfl rfl hseparated.2
    | numeral _ => exact hword _ rfl rfl hseparated.2

/-- The token of a symbol stands for the symbol. -/
theorem ofFragment_source {s : Symbol Term} (h : ∀ t, s = .operand t → t.IsWhole ∧
    Token t.text (some (.operand t))) : Symbol.ofFragment (source s) = s.map Term.text := by
  cases s with
  | opening => rfl
  | closing => rfl
  | op o => cases o <;> rfl
  | operand t =>
    obtain ⟨hwhole, htoken⟩ := h t rfl
    obtain ⟨c, cs, htext⟩ := List.exists_cons_of_ne_nil htoken.ne_nil
    have hc := hwhole.isIdentifierPart htoken c (htext ▸ List.mem_cons_self)
    show Symbol.ofFragment t.text = .operand t.text
    rw [htext, ofFragment_of_isIdentifierPart hc]

/-! ### Operands -/

variable {σ : Type}

/-- What an operand stands for over whole numbers: a numeral the number that it is exactly, and a
variable what is found for it. -/
inductive Term.Finds (resolve : String → StateM σ Int) : Term → Outcomes σ
  | numeral {n : Numeral} {k : Nat} (memory : σ) : n.decimal = ⟨k, 0⟩ →
    Finds resolve (.numeral n) memory (some k) memory
  | variable {name : List Char} {memory memory' : σ} {k : Int} :
    (resolve (String.ofList name)).run memory = (k, memory') →
    Finds resolve (.variable name) memory (some k) memory'

/-- Digits of the first kind have the same number for both. -/
theorem natOfDigits_of_isDigit {ds : List Char} (h : ∀ c ∈ ds, c.isDigit = true) :
    Number.natOfDigits ds = ofDigits ds := by
  apply List.foldl_ext
  intro n c hc
  rw [Text.digit?_of_isDigit (h c hc), Option.getD_some]

/-- A numeral of plain digits is exactly the number that the digits stand for. -/
theorem decimal_of_isDigit {n : Numeral} (hn : n.Formed) (h : ∀ c ∈ n.text, c.isDigit = true) :
    n.decimal = ⟨ofDigits n.text, 0⟩ := by
  obtain ⟨whole, point, fraction, exponent⟩ := n
  have hexponent : exponent = none := by
    cases exponent with
    | none => rfl
    | some e =>
      have hdigit := h e.mark (by simp [Numeral.text, Number.Exponent.text])
      rcases (hn.exponent e rfl).mark with hmark | hmark
      · rw [hmark] at hdigit
        cases hdigit
      · rw [hmark] at hdigit
        cases hdigit
  rcases hn.point with hpoint | ⟨hpoint, hfraction⟩
  · cases hpoint
    cases h '.' (by simp [Numeral.text])
  · cases hpoint
    cases hfraction
    subst hexponent
    have htext : Numeral.text ⟨whole, [], [], none⟩ = whole := by simp [Numeral.text]
    rw [htext] at h ⊢
    simp [Numeral.decimal, natOfDigits_of_isDigit h]

/-- A token that is a numeral has the form of one. -/
theorem Token.formed {w : List Char} {n : Numeral} (h : Token w (some (.operand (.numeral n)))) :
    n.Formed := by
  cases h with
  | numeral hn => exact hn

/-- A whole operand is found as it is to be. -/
theorem computes_operand (resolve : String → StateM σ Int) (h : t.IsWhole)
    (htoken : Token t.text (some (.operand t))) :
    Computes (Expr.Integer.operand resolve t.text) (t.Finds resolve) := by
  cases t with
  | numeral n =>
    have hdecimal := decimal_of_isDigit htoken.formed (List.all_eq_true.mp h.1)
    have hoperand : Expr.Integer.operand resolve n.text = pure (ofDigits n.text : Int) := by
      rw [Expr.Integer.operand, if_pos ⟨htoken.ne_nil, h.1⟩, if_neg (not_lt.mpr h.2)]
    refine ⟨fun memory => ⟨_, memory, .numeral memory hdecimal⟩, ?_⟩
    rintro memory _ _ ⟨-, hk⟩
    cases hdecimal.symm.trans hk
    exact congrArg (·.run.run memory) hoperand
  | «variable» name =>
    have hletters : ¬ (name ≠ [] ∧ name.all Char.isDigit = true) := by
      rintro ⟨-, hdigits⟩
      cases htoken with
      | @«variable» c cs hc hcs =>
        have hdigit := List.all_eq_true.mp hdigits c List.mem_cons_self
        cases hc.symm.trans (not_isIdentifierStart_of_isDigit hdigit)
    have hname : isCellName (String.ofList name) = true := h
    have hoperand : Expr.Integer.operand resolve name = liftM (resolve (String.ofList name)) := by
      rw [Expr.Integer.operand, if_neg hletters, if_pos hname]
    refine ⟨fun memory => ⟨_, _, .variable rfl⟩, ?_⟩
    rintro memory _ memory' (_ | hfound)
    show (Expr.Integer.operand resolve name).run.run memory = _
    rw [hoperand]
    exact congrArg (fun found => (Except.ok found.1, found.2)) hfound

/-! ### Values -/

/-- A text that is read as a formula, and whose operands are whole, falls into the tokens of the formula
when it is evaluated over whole numbers. It comes to what the phrase of the formula comes to, which is a
number or, with the first divisor that is zero, a division by zero. -/
theorem evaluate_parsed {naming : Naming} {text : String} {f : Formula}
    (h : parse naming text = .ok f)
    (hwhole : ∀ symbols, scan text.toList = .ok symbols → ∀ t, .operand t ∈ symbols → t.IsWhole) :
    (∃ e : Phrase Term .sum, scan text.toList = .ok e.symbols)
      ∧ ∀ e : Phrase Term .sum, scan text.toList = .ok e.symbols →
        f.symbols = (e.map (meaning naming)).symbols
        ∧ fragments text.toList = e.symbols.map source
        ∧ ∀ {σ : Type} (resolve : String → StateM σ Int) (memory : σ), ∃ result memory',
            (Expr.Integer.evaluate resolve text).run.run memory = (answer result, memory')
              ∧ ∀ r m, Yields (Term.Finds resolve) e memory r m ↔ r = result ∧ m = memory' := by
  obtain ⟨symbols, hformula, hsymbols⟩ := exists_isFormula_of_parse h
  have hscan := scan_eq_ok_iff.mpr hformula.scanned
  have hderivable := Expr.derives_iff_derivable.mp hformula.derives
  refine ⟨?_, fun e he => ?_⟩
  · obtain ⟨e, rfl⟩ := hderivable
    exact ⟨e, hscan⟩
  -- A text falls into its symbols in one way.
  obtain rfl : symbols = e.symbols := Except.ok.inj (hscan.symm.trans he)
  have hfragments : fragments text.toList = e.symbols.map source :=
    fragments_of_scanned hformula.scanned (Expr.derivable_iff_ordered.mp hderivable).separated
      (hwhole _ hscan)
  have htokens : Expr.Integer.symbols text.toList = (e.map Term.text).symbols := by
    rw [Expr.Integer.symbols, hfragments, List.map_map, Phrase.symbols_map]
    apply List.map_congr_left
    rintro s hs
    apply ofFragment_source
    rintro t rfl
    exact ⟨hwhole _ hscan t hs, hformula.scanned.token hs⟩
  refine ⟨hsymbols.trans (Phrase.symbols_map _ e).symm, hfragments, fun resolve memory => ?_⟩
  have hcomputes : Computes (Expr.Integer.evaluate resolve text) (Yields (Term.Finds resolve) e) := by
    rw [Expr.Integer.evaluate, htokens]
    exact Expr.Integer.computes_value fun t ht =>
      computes_operand resolve (hwhole _ hscan t ht) (hformula.scanned.token ht)
  exact hcomputes.exists_iff memory

/-- Finds 2 for every variable, and counts the lookups. -/
def counting (_ : String) : StateM Nat Int := do
  modify (· + 1)
  return 2

/-- In `(b2-9) / b2` the quotient of -7 and 2 is -3. -/
theorem evaluate_parsed_negative :
    (∃ f, parse anyName "(b2-9) / b2" = .ok f)
      ∧ fragments "(b2-9) / b2".toList
        = [['('], ['b', '2'], ['-'], ['9'], [')'], ['/'], ['b', '2']]
      ∧ (Expr.Integer.evaluate counting "(b2-9) / b2").run.run 0 = (.ok (-3), 2) := by
  let b2 : Phrase Term .factor := .operand (.variable ['b', '2'])
  let nine : Phrase Term .factor := .operand (.numeral ⟨['9'], [], [], none⟩)
  let e : Phrase Term .sum := .product (.multiply (.factor (.group
    (.sum (.product (.factor b2)) true (.factor nine)))) true b2)
  have hscan : scan "(b2-9) / b2".toList = .ok e.symbols := by cbv
  have hoperands : ∀ t, .operand t ∈ e.symbols →
      t = .variable ['b', '2'] ∨ t = .numeral ⟨['9'], [], [], none⟩ := by
    intro t ht
    simp [e, b2, nine, Phrase.symbols] at ht
    tauto
  have hwhole : ∀ symbols, scan "(b2-9) / b2".toList = .ok symbols →
      ∀ t, .operand t ∈ symbols → t.IsWhole := by
    intro symbols hsymbols t ht
    cases hsymbols.symm.trans hscan
    rcases hoperands t ht with rfl | rfl
    · show isCellName "b2" = true
      cbv
    · exact ⟨rfl, by decide⟩
  have hfinite : Number.isFinite (Number.ofDecimal false ⟨9, 0⟩) = true := by
    rw [Number.isFinite, Number.ofDecimal,
      Number.magnitude_ofMagnitude false (Number.Decimal.nearest_le_infinity _)]
    decide +kernel
  have haccepted : AllAccepted anyName e.symbols := by
    intro t ht
    rcases hoperands t ht with rfl | rfl
    · exact ⟨by cbv, rfl⟩
    · exact hfinite
  have hparse := parse_of_isFormula
    ⟨scan_eq_ok_iff.mp hscan, Expr.derives_iff_derivable.mpr ⟨e, rfl⟩, haccepted⟩
  obtain ⟨-, hfragments, hvalue⟩ := (evaluate_parsed hparse hwhole).2 e hscan
  obtain ⟨result, memory', hrun, hyields⟩ := hvalue counting 0
  have hquotient : Yields (Term.Finds counting) e 0 (some (-3)) 2 :=
    .both (.both (.variable rfl) (.numeral 1 rfl) (.sub 2 9)) (.variable rfl)
      (.div (by decide) ⟨by decide, by decide⟩)
  obtain ⟨rfl, rfl⟩ := (hyields _ _).mp hquotient
  exact ⟨⟨_, hparse⟩, hfragments, hrun⟩

end Worksheet.Formula
