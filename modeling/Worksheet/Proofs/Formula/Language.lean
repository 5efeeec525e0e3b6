import Worksheet.Proofs.Expr.Grammar
import Worksheet.Proofs.Formula.Token

/-!
# The language of formulas

Which texts are read as formulas, said without the program that reads them.

* `check_ok_iff_ordered`: the checks on neighbours, on the two ends and on the open parentheses
  accept the rows of the grammar.
* `IsFormula`: what the text of a formula has to be.
* `Fault.Blames`: what a fault says of a text.
* `parse_iff_isFormula`: the texts of formulas are read, and every other text is refused with a
  fault that it has.
-/

namespace Worksheet.Formula

open Worksheet.Expr (Symbol Category Derives Ordered derives_iff_derivable derivable_iff_ordered)
open Worksheet.Number (Numeral)

/-! ### The order of the symbols

The check looks at two symbols that stand side by side, and counts parentheses. An ordered row is
read with two states. Both keep the same depth, and the last symbol tells the state.
-/

/-- An ordered row, symbol by symbol, in the terms of the check. -/
theorem ordered_cons_iff {depth : Nat} {ended : Bool} {s : Symbol Term}
    {symbols : List (Symbol Term)} :
    Ordered depth ended (s :: symbols)
      ↔ startsOperand s = !ended ∧ (s = .closing → 0 < depth)
        ∧ Ordered (deepen depth s) (endsOperand s) symbols := by
  cases s <;> cases ended <;> simp [Ordered, startsOperand, endsOperand, deepen]

/-- Behind a symbol, an ordered row is one that passes the checks and ends with an operand. -/
theorem ordered_iff_checkFrom {depth : Nat} {p : Symbol Term} {symbols : List (Symbol Term)} :
    Ordered depth (endsOperand p) symbols
      ↔ checkFrom depth (some p) symbols = .ok ()
        ∧ ∃ last ∈ (p :: symbols).getLast?, endsOperand last = true := by
  induction symbols generalizing depth p with
  | nil => simp [Ordered, checkFrom]
  | cons s symbols ih =>
    -- The two checks on neighbours say that an operand begins if and only if none has just ended.
    have hneighbours : startsOperand s = (!endsOperand p)
        ↔ ¬ ((some p).any (!endsOperand ·) = true ∧ (!startsOperand s) = true)
          ∧ ¬ ((some p).any endsOperand = true ∧ startsOperand s = true) := by
      cases hs : startsOperand s <;> cases hp : endsOperand p <;> simp [hp]
    have hclosing : (s = .closing → 0 < depth) ↔ ¬ (s = .closing ∧ depth = 0) := by
      grind
    rw [ordered_cons_iff, checkFrom_cons_iff, ih, hneighbours, hclosing, List.getLast?_cons_cons]
    constructor
    · rintro ⟨⟨hoperand, hoperator⟩, hopen, hcheck, hlast⟩
      exact ⟨⟨hopen, hoperand, hoperator, hcheck⟩, hlast⟩
    · rintro ⟨⟨hopen, hoperand, hoperator, hcheck⟩, hlast⟩
      exact ⟨⟨hoperand, hoperator⟩, hopen, hcheck, hlast⟩

/-- What passes the check is ordered. -/
theorem check_ok_iff_ordered {symbols : List (Symbol Term)} :
    check symbols = .ok () ↔ Ordered 0 false symbols := by
  cases symbols with
  | nil => simp [check, Ordered]
  | cons s symbols =>
    rw [check_ok_iff, checkFrom_cons_iff, ordered_cons_iff, ordered_iff_checkFrom]
    simp only [List.head?_cons, Option.mem_def, Option.some.injEq, exists_eq_left', Option.any_none,
      Bool.false_eq_true, false_and, not_false_eq_true, true_and, Bool.not_false, and_true,
      Nat.lt_irrefl, imp_false]
    grind

/-- The checks accept the rows that the grammar derives. -/
theorem check_ok_iff_derives {symbols : List (Symbol Term)} :
    check symbols = .ok () ↔ Derives .expression symbols := by
  rw [check_ok_iff_ordered, derives_iff_derivable, derivable_iff_ordered]

/-! ### Operands

A formula keeps numbers and normal forms in the place of what was typed. Which operands can be
replaced so is said here without computing anything.
-/

/-- Whether an operand is accepted: a variable if its normal form is an identifier and accepted by
the sheet, and a numeral if its double is finite. -/
def Accepts (naming : Naming) : Term → Prop
  | .variable name =>
    isIdentifier (naming.normalize (String.ofList name)) = true
      ∧ naming.isValid (naming.normalize (String.ofList name)) = true
  | .numeral n => Number.isFinite (Number.ofDecimal false n.decimal) = true

/-- What an accepted operand stands for. -/
def meaning (naming : Naming) : Term → Atom
  | .variable name => .variable (naming.normalize (String.ofList name))
  | .numeral n => .number (Number.ofDecimal false n.decimal)

/-- The fault that an operand has if it is not accepted. -/
def Term.fault : Term → Fault
  | .variable name => .invalidVariable name
  | .numeral n => .outOfRange n.text

/-- An operand that is accepted is replaced by what it means. -/
theorem resolve_of_accepts {naming : Naming} {t : Term} (h : Accepts naming t) :
    resolve naming t = .ok (meaning naming t) := by
  cases t with
  | «variable» name =>
    simp only [resolve, Naming.resolve?, Accepts] at h ⊢
    rw [if_pos (by rw [h.1, h.2]; rfl)]
    rfl
  | numeral n => exact if_pos h

theorem resolve_of_not_accepts {naming : Naming} {t : Term} (h : ¬ Accepts naming t) :
    resolve naming t = .error t.fault := by
  cases t with
  | «variable» name =>
    simp only [resolve, Naming.resolve?, Accepts] at h ⊢
    rw [if_neg (by rwa [Bool.and_eq_true])]
    rfl
  | numeral n => exact if_neg h

/-- The operands of the row are accepted. -/
def AllAccepted (naming : Naming) (symbols : List (Symbol Term)) : Prop :=
  ∀ t, .operand t ∈ symbols → Accepts naming t

theorem resolveSymbol_of_accepts {naming : Naming} {s : Symbol Term}
    (h : ∀ t, s = .operand t → Accepts naming t) :
    resolveSymbol naming s = .ok (s.map (meaning naming)) := by
  cases s with
  | operand t => rw [resolveSymbol, resolve_of_accepts (h t rfl)]; rfl
  | opening => rfl
  | closing => rfl
  | op o => rfl

/-- Accepted operands are read as what they stand for, each in its place. -/
theorem mapM_resolveSymbol {naming : Naming} {symbols : List (Symbol Term)}
    (h : AllAccepted naming symbols) :
    symbols.mapM (resolveSymbol naming) = .ok (symbols.map (Symbol.map (meaning naming))) := by
  induction symbols with
  | nil => rfl
  | cons s symbols ih =>
    have hs : resolveSymbol naming s = .ok (s.map (meaning naming)) :=
      resolveSymbol_of_accepts fun t ht => h t (ht ▸ List.mem_cons_self)
    rw [List.mapM_cons, hs, ih fun t ht => h t (List.mem_cons_of_mem _ ht)]
    rfl

/-- If some operand is not accepted, then one such is reported. -/
theorem exists_mapM_resolveSymbol_error {naming : Naming} {symbols : List (Symbol Term)}
    (h : ¬ AllAccepted naming symbols) :
    ∃ t, .operand t ∈ symbols ∧ ¬ Accepts naming t
      ∧ symbols.mapM (resolveSymbol naming) = .error t.fault := by
  induction symbols with
  | nil =>
    apply absurd _ h
    intro t ht
    cases ht
  | cons s symbols ih =>
    by_cases hs : ∀ t, s = .operand t → Accepts naming t
    · have hrest : ¬ AllAccepted naming symbols := by
        intro hall
        apply h
        intro t ht
        rcases List.mem_cons.mp ht with hts | ht
        · exact hs t hts.symm
        · exact hall t ht
      obtain ⟨t, ht, hrefused, herror⟩ := ih hrest
      refine ⟨t, List.mem_cons_of_mem _ ht, hrefused, ?_⟩
      rw [List.mapM_cons, resolveSymbol_of_accepts hs, herror]
      rfl
    · push Not at hs
      obtain ⟨t, rfl, hrefused⟩ := hs
      refine ⟨t, List.mem_cons_self, hrefused, ?_⟩
      rw [List.mapM_cons, resolveSymbol, resolve_of_not_accepts hrefused]
      rfl

/-! ### The language

A text is a formula if it has tokens, these derive from the grammar, and the operands are accepted.
A text that is none lacks one of the three, and which one is blamed is told from where the parser
stops.
-/

/-- What the text of a formula has to be: it falls into tokens, each as long as possible, whose
symbols are an expression, and every operand is accepted. -/
structure IsFormula (naming : Naming) (text : List Char) (symbols : List (Symbol Term)) : Prop where
  scanned : Scanned text symbols
  derives : Derives .expression symbols
  accepted : AllAccepted naming symbols

/-- What a fault says of a text: no token begins at the character, or the symbols are no expression,
or they are one and the operand is not accepted. -/
def Fault.Blames (naming : Naming) (text : List Char) : Fault → Prop
  | .invalidCharacter c position => Stuck text c position
  | .invalidVariable name => ∃ symbols, Scanned text symbols ∧ Derives .expression symbols
      ∧ .operand (.variable name) ∈ symbols ∧ ¬ Accepts naming (.variable name)
  | .outOfRange digits => ∃ symbols, Scanned text symbols ∧ Derives .expression symbols
      ∧ ∃ n, n.text = digits ∧ .operand (.numeral n) ∈ symbols ∧ ¬ Accepts naming (.numeral n)
  | _ => ∃ symbols, Scanned text symbols ∧ ¬ Derives .expression symbols

/-- Whether a fault is about the order of the symbols. -/
def Fault.ofOrder : Fault → Bool
  | .invalidCharacter _ _ | .invalidVariable _ | .outOfRange _ => false
  | _ => true

/-- The check finds no faults but those of order. -/
theorem ofOrder_of_checkFrom {depth : Nat} {previous : Option (Symbol Term)}
    {symbols : List (Symbol Term)} {fault : Fault}
    (h : checkFrom depth previous symbols = .error fault) : fault.ofOrder = true := by
  induction symbols generalizing depth previous with
  | nil =>
    rw [checkFrom] at h
    split at h <;> cases h
    rfl
  | cons s symbols ih =>
    rw [checkFrom_cons] at h
    split at h
    · cases h
      rfl
    · split at h
      · cases h
        rfl
      · split at h
        · cases h
          rfl
        · exact ih h

theorem ofOrder_of_check {symbols : List (Symbol Term)} {fault : Fault}
    (h : check symbols = .error fault) : fault.ofOrder = true := by
  unfold check at h
  split at h
  · split at h
    · cases h
      rfl
    · split at h
      · cases h
        rfl
      · exact ofOrder_of_checkFrom h
  · cases h
    rfl

/-- A fault of order blames the order of the symbols. -/
theorem blames_of_ofOrder {naming : Naming} {text : List Char} {symbols : List (Symbol Term)}
    {fault : Fault} (hfault : fault.ofOrder = true) (hscanned : Scanned text symbols)
    (hderives : ¬ Derives .expression symbols) : fault.Blames naming text := by
  cases fault <;> first | exact ⟨symbols, hscanned, hderives⟩ | cases hfault

theorem blames_of_refused {naming : Naming} {text : List Char} {symbols : List (Symbol Term)}
    {t : Term} (hscanned : Scanned text symbols) (hderives : Derives .expression symbols)
    (ht : .operand t ∈ symbols) (hrefused : ¬ Accepts naming t) : t.fault.Blames naming text := by
  cases t with
  | «variable» name => exact ⟨symbols, hscanned, hderives, ht, hrefused⟩
  | numeral n => exact ⟨symbols, hscanned, hderives, n, rfl, ht, hrefused⟩

/-- The text of a formula is read as what its operands stand for. -/
theorem parse_of_isFormula {naming : Naming} {text : String} {symbols : List (Symbol Term)}
    (h : IsFormula naming text.toList symbols) :
    parse naming text = .ok ⟨symbols.map (Symbol.map (meaning naming))⟩ :=
  parse_eq_ok.mpr ⟨symbols, scan_eq_ok_iff.mpr h.scanned, check_ok_iff_derives.mpr h.derives,
    mapM_resolveSymbol h.accepted⟩

/-- What a formula has been read from. -/
theorem exists_isFormula_of_parse {naming : Naming} {text : String} {f : Formula}
    (h : parse naming text = .ok f) :
    ∃ symbols, IsFormula naming text.toList symbols
      ∧ f.symbols = symbols.map (Symbol.map (meaning naming)) := by
  obtain ⟨symbols, hscan, hcheck, hresolve⟩ := parse_eq_ok.mp h
  have haccepted : AllAccepted naming symbols := by
    by_contra hrefused
    obtain ⟨t, -, -, herror⟩ := exists_mapM_resolveSymbol_error hrefused
    cases hresolve.symm.trans herror
  have hmeaning := Except.ok.inj (hresolve.symm.trans (mapM_resolveSymbol haccepted))
  exact ⟨symbols, ⟨scan_eq_ok_iff.mp hscan, check_ok_iff_derives.mp hcheck, haccepted⟩, hmeaning⟩

/-- Whatever is reported is to blame. -/
theorem blames_of_parse {naming : Naming} {text : String} {fault : Fault}
    (h : parse naming text = .error fault) : fault.Blames naming text.toList := by
  unfold parse at h
  cases hscan : scan text.toList with
  | error fault' =>
    rw [hscan] at h
    obtain ⟨c, position, rfl, hstuck⟩ := scan_eq_error_iff.mp hscan
    cases h
    exact hstuck
  | ok symbols =>
    have hscanned := scan_eq_ok_iff.mp hscan
    simp only [hscan, bind, Except.bind] at h
    cases hcheck : check symbols with
    | error fault' =>
      rw [hcheck] at h
      have hderives : ¬ Derives .expression symbols := by
        intro hderives
        cases hcheck.symm.trans (check_ok_iff_derives.mpr hderives)
      obtain rfl : fault' = fault := Except.error.inj h
      exact blames_of_ofOrder (ofOrder_of_check hcheck) hscanned hderives
    | ok u =>
      rw [hcheck] at h
      have hderives := check_ok_iff_derives.mp hcheck
      have hrefused : ¬ AllAccepted naming symbols := by
        intro haccepted
        rw [mapM_resolveSymbol haccepted] at h
        cases h
      obtain ⟨t, ht, hrefused, herror⟩ := exists_mapM_resolveSymbol_error hrefused
      obtain rfl : t.fault = fault := by
        rw [herror] at h
        exact Except.error.inj h
      exact blames_of_refused hscanned hderives ht hrefused

/-- A text is read as a formula if and only if it is that of one, and every other text is refused
with a fault that it has. -/
theorem parse_iff_isFormula (naming : Naming) (text : String) :
    ((∃ f, parse naming text = .ok f) ↔ ∃ symbols, IsFormula naming text.toList symbols)
      ∧ ((∃ fault, parse naming text = .error fault ∧ fault.Blames naming text.toList)
        ↔ ¬ ∃ symbols, IsFormula naming text.toList symbols) := by
  have hread : (∃ f, parse naming text = .ok f)
      ↔ ∃ symbols, IsFormula naming text.toList symbols := by
    constructor
    · rintro ⟨f, h⟩
      obtain ⟨symbols, hformula, -⟩ := exists_isFormula_of_parse h
      exact ⟨symbols, hformula⟩
    · rintro ⟨symbols, hformula⟩
      exact ⟨_, parse_of_isFormula hformula⟩
  refine ⟨hread, ?_⟩
  rw [← hread]
  cases hparse : parse naming text with
  | ok f => simp
  | error fault => simpa using blames_of_parse hparse

/-- There are no signs: a formula that begins with one is refused. -/
example : parse anyName "-1" = .error (.cannotStart ['-']) := by cbv

end Worksheet.Formula
