import Worksheet.Proofs.Expr.Machine
import Worksheet.Proofs.Expr.Phrase
import Worksheet.Proofs.Formula.Evaluation
import Worksheet.Proofs.Formula.Language

/-!
# The outcome of an evaluation

What a formula comes to, said of its text as it was typed. The typed symbols are those of a phrase,
which tells how they are grouped. The phrase is evaluated from left to right, and the first event
that stops it is reported: a divisor that is zero, or a lookup that fails.

* `Event`, `doubles`, `denote`: evaluation of the phrase.
* `report`: what becomes of its outcome.
* `lookup_of_evaluate_ok`, `evaluate_error`: a formula has a value only if all its variables have
  one, and why it may have none.
* `Course`: the order of the lookups.
* `evaluateWith_reports`: a formula that has been read comes to what is reported, and the machine
  finds no fault with its symbols.
-/

namespace Worksheet.Formula

open Worksheet.Expr (Arithmetic Phrase Rank Symbol)

variable {m : Type → Type} [Monad m] {ε : Type}

/-! ### Evaluation of what is typed -/

/-- What stops an evaluation. -/
inductive Event (ε : Type) where
  | zeroDivisor
  | raised (name : String) (e : ε)

/-- The arithmetic of doubles, where a divisor that is zero stops the evaluation. -/
def doubles : Arithmetic (ExceptT (Event ε) m) Float where
  add := (· + ·)
  sub := (· - ·)
  mul := (· * ·)
  div left right := if Number.isZero right then throw .zeroDivisor else pure (left / right)

/-- What a typed operand denotes: a numeral its double, and a variable what is found for its normal
form. -/
def denote (naming : Naming) (lookup : String → ExceptT ε m Float) :
    Term → ExceptT (Event ε) m Float
  | .numeral n => pure (Number.ofDecimal false n.decimal)
  | .variable name =>
    let normal := naming.normalize (String.ofList name)
    (lookup normal).adapt (Event.raised normal)

/-- What is reported of an event, if it is not passed on. -/
def Event.report (is : ε → Kind → Bool) : Event ε → Except ε Reason
  | zeroDivisor => .ok .divisionByZero
  | raised name e =>
    if is e .lookup || is e .value || is e .type then .ok (.undefinedVariable name)
    else if is e .zeroDivision then .ok .divisionByZero
    else .error e

/-- What is reported of an outcome. -/
def report {α : Type} (is : ε → Kind → Bool) : Except (Event ε) α → Except ε (Except Reason α)
  | .ok x => .ok (.ok x)
  | .error event => (event.report is).map .error

/-- Nothing is reported as a fault of the symbols. -/
theorem report_ne_malformed {α : Type} (is : ε → Kind → Bool) (r : Except (Event ε) α)
    (fault : Expr.Malformed) : report is r ≠ .ok (.error (.malformed fault)) := by
  cases r with
  | ok x => simp [report]
  | error event =>
    cases event with
    | zeroDivisor => simp [report, Event.report, Except.map]
    | raised name e =>
      simp only [report, Event.report]
      split
      · simp [Except.map]
      · split <;> simp [Except.map]

/-! ### The machine evaluates what is typed

The machine runs on symbols that have been replaced, and reports reasons of its own. By translating
events into reports, its run is that of the phrase that was typed.
-/

variable [LawfulMonad m]

/-- The machine finds the value of a phrase and no fault with its symbols. -/
theorem value_symbols {α : Type} (operand : α → ExceptT Reason m Float) (e : Phrase α .sum) :
    value operand e.symbols = e.eval arithmetic operand := by
  rw [value, Phrase.run_value_symbols, bind_map_left]
  exact bind_pure _

/-- A computation that is stopped by events, with the events reported. -/
def reported (is : ε → Kind → Bool) {α : Type} (x : ExceptT (Event ε) m α) :
    ExceptT Reason (ExceptT ε m) α :=
  ExceptT.mk (ExceptT.mk (report is <$> x.run))

/-- What a computation reports is reported step by step. -/
theorem reported_bind (is : ε → Kind → Bool) {α β : Type} (x : ExceptT (Event ε) m α)
    (k : α → ExceptT (Event ε) m β) :
    reported is (x >>= k) = reported is x >>= fun a => reported is (k a) := by
  apply ExceptT.ext
  apply ExceptT.ext
  simp only [reported, ExceptT.run_mk, ExceptT.run_bind, map_bind, bind_map_left]
  apply bind_congr
  intro r
  cases r with
  | ok a => rfl
  | error event =>
    simp only [map_pure, report]
    cases event.report is <;> rfl

/-- A division by zero is reported as one. -/
theorem reported_apply (is : ε → Kind → Bool) (o : Expr.Op) (a b : Float) :
    reported is ((doubles : Arithmetic (ExceptT (Event ε) m) Float).apply o a b)
      = arithmetic.apply o a b := by
  cases o with
  | add => exact congrArg ExceptT.mk (congrArg ExceptT.mk (map_pure _ _))
  | sub => exact congrArg ExceptT.mk (congrArg ExceptT.mk (map_pure _ _))
  | mul => exact congrArg ExceptT.mk (congrArg ExceptT.mk (map_pure _ _))
  | div =>
    simp only [Arithmetic.apply, doubles, arithmetic, divide]
    split
    · exact congrArg ExceptT.mk (congrArg ExceptT.mk (map_pure _ _))
    · exact congrArg ExceptT.mk (congrArg ExceptT.mk (map_pure _ _))

/-- A lookup that fails is reported by its kind. -/
theorem reported_denote (is : ε → Kind → Bool) (naming : Naming)
    (lookup : String → ExceptT ε m Float) (t : Term) :
    reported is (denote naming lookup t) = operand (replies is lookup) (meaning naming t) := by
  cases t with
  | numeral n => exact congrArg ExceptT.mk (congrArg ExceptT.mk (map_pure _ _))
  | «variable» name =>
    apply ExceptT.ext
    apply ExceptT.ext
    simp only [reported, denote, meaning, operand, replies, ExceptT.run_mk, ExceptT.run_bind,
      ExceptT.run_adapt, ExceptT.run_monadLift, monadLift_self, bind_map_left]
    rw [Functor.map_map, map_eq_pure_bind]
    apply bind_congr
    intro r
    cases r with
    | ok x => rfl
    | error e =>
      simp only [Except.mapError, report, Event.report, Reply.ofResult]
      split
      · rfl
      · split <;> rfl

/-- What a formula comes to is what is reported of the phrase that it has been read from. -/
theorem evaluateWith_eq (is : ε → Kind → Bool) (naming : Naming) {f : Formula}
    {e : Phrase Term .sum} (h : f.symbols = e.symbols.map (Symbol.map (meaning naming)))
    (lookup : String → ExceptT ε m Float) :
    (f.evaluateWith is lookup).run = report is <$> (e.eval doubles (denote naming lookup)).run := by
  have hvalue : value (operand (replies is lookup)) f.symbols
      = reported is (e.eval doubles (denote naming lookup)) := by
    rw [h, ← Phrase.symbols_map, value_symbols, Phrase.eval_map]
    symm
    exact Phrase.eval_translate (reported_bind is) (reported_apply is)
      (reported_denote is naming lookup) e
  rw [evaluateWith, evaluate, hvalue]
  rfl

/-! ### Formulas without a value -/

section Strict

variable {naming : Naming} {text : String} {f : Formula} {lookup : String → Reply}

/-- A formula that has been read is a phrase. -/
theorem exists_phrase (h : parse naming text = .ok f) :
    ∃ e : Phrase Atom .sum, e.symbols = f.symbols := by
  obtain ⟨symbols, hformula, hf⟩ := exists_isFormula_of_parse h
  obtain ⟨e, rfl⟩ := Expr.derives_iff_derivable.mp hformula.derives
  exact ⟨e.map (meaning naming), (Phrase.symbols_map _ e).trans hf.symm⟩

/-- A formula is evaluated as its phrase. -/
theorem evaluate_eq_eval {e : Phrase Atom .sum} (h : e.symbols = f.symbols)
    (lookup : String → m Reply) : f.evaluate lookup = (e.eval arithmetic (operand lookup)).run := by
  rw [evaluate, ← h, value_symbols]

/-- What a formula makes of what is found for a variable. -/
def Reply.outcome (name : String) : Reply → Except Reason Float
  | number x => .ok x
  | undefined => .error (.undefinedVariable name)
  | zeroDivision => .error .divisionByZero

theorem run_operand (lookup : String → Reply) (name : String) :
    Id.run (operand (m := Id) lookup (.variable name)).run = (lookup name).outcome name := by
  simp only [operand, ExceptT.run_bind]
  cases lookup name <;> rfl

/-- A formula has a value only if each of its variables has one. -/
theorem lookup_of_evaluate_ok (h : parse naming text = .ok f) {x : Float}
    (hvalue : Id.run (f.evaluate lookup) = .ok x) {name : String} (hname : f.Mentions name) :
    ∃ y, lookup name = .number y := by
  obtain ⟨e, he⟩ := exists_phrase h
  rw [evaluate_eq_eval he] at hvalue
  have hmem : .operand (.variable name) ∈ e.symbols := by
    rw [he]
    exact hname
  obtain ⟨y, hy⟩ := Phrase.lookup_of_eval_ok hvalue hmem
  rw [run_operand] at hy
  cases hlookup : lookup name with
  | number x => exact ⟨x, rfl⟩
  | undefined => simp [hlookup, Reply.outcome] at hy
  | zeroDivision => simp [hlookup, Reply.outcome] at hy

theorem apply_error {o : Expr.Op} {left right : Float} {reason : Reason}
    (h : Id.run ((arithmetic : Arithmetic (ExceptT Reason Id) Float).apply o left right).run
      = .error reason) : reason = .divisionByZero := by
  cases o with
  | add => cases h
  | sub => cases h
  | mul => cases h
  | div =>
    simp only [Arithmetic.apply, arithmetic, divide] at h
    split at h
    · cases h
      rfl
    · cases h

/-- A formula without a value divides by zero, or a lookup does, or it names a variable that has no
value. -/
theorem evaluate_error (h : parse naming text = .ok f) {reason : Reason}
    (hreason : Id.run (f.evaluate lookup) = .error reason) :
    reason = .divisionByZero
      ∨ ∃ name, f.Mentions name ∧ lookup name = .undefined ∧ reason = .undefinedVariable name := by
  obtain ⟨e, he⟩ := exists_phrase h
  rw [evaluate_eq_eval he] at hreason
  rcases Phrase.stops_of_eval_error hreason with ⟨a, ha, hoperand⟩ | ⟨o, left, right, happly⟩
  · cases a with
    | number x => cases hoperand
    | «variable» name =>
      rw [run_operand] at hoperand
      cases hlookup : lookup name with
      | number x => simp [hlookup, Reply.outcome] at hoperand
      | undefined =>
        rw [he] at ha
        simp only [hlookup, Reply.outcome, Except.error.injEq] at hoperand
        exact .inr ⟨name, ha, hlookup, hoperand.symm⟩
      | zeroDivision =>
        simp only [hlookup, Reply.outcome, Except.error.injEq] at hoperand
        exact .inl hoperand.symm
  · exact .inl (apply_error happly)

end Strict

/-! ### The course of the lookups

Which names have been asked for, in a monad that does nothing but write them down. As long as
replies depend on nothing but this record, every evaluation runs the same course.
-/

omit [Monad m] [LawfulMonad m]

/-- The course of an evaluation that needs the values of `names`, when the names `before` have been
looked up: the names are looked up one after the other, until something stops the evaluation.
`asked` are those that are looked up. An oracle tells what a lookup finds, which may depend on the
lookups before it. -/
inductive Course (oracle : List String → String → Except ε Float) {α : Type} :
    List String → List String → List String → Except (Event ε) α → Prop
  | value (before : List String) (x : α) : Course oracle before [] [] (.ok x)
  | zeroDivisor (before names : List String) : Course oracle before names [] (.error .zeroDivisor)
  | raised {before names : List String} {name : String} {e : ε} : oracle before name = .error e →
    Course oracle before (name :: names) [name] (.error (.raised name e))
  | found {before names asked : List String} {name : String} {x : Float} {r : Except (Event ε) α} :
    oracle before name = .ok x → Course oracle (before ++ [name]) names asked r →
    Course oracle before (name :: names) (name :: asked) r

namespace Course

variable {oracle : List String → String → Except ε Float} {α β : Type}
  {before names names' asked asked' : List String}

/-- With a result, every name has been looked up. -/
theorem asked_eq {a : α} (h : Course oracle before names asked (.ok a)) : asked = names := by
  generalize hr : Except.ok a = r at h
  induction h with
  | value before x => rfl
  | zeroDivisor before names => cases hr
  | raised _ => cases hr
  | found _ _ ih => rw [ih hr]

/-- What stops an evaluation also stops one that would go on. -/
theorem stop {event : Event ε} (h : Course oracle (α := α) before names asked (.error event))
    (names' : List String) :
    Course oracle (α := β) before (names ++ names') asked (.error event) := by
  generalize hr : Except.error event = r at h
  induction h with
  | value before x => cases hr
  | zeroDivisor before names =>
    cases hr
    exact .zeroDivisor before _
  | raised hraised =>
    cases hr
    exact .raised hraised
  | found hfound _ ih => exact .found hfound (ih hr)

/-- One evaluation after another. -/
theorem append {a : α} {r : Except (Event ε) β} (h : Course oracle before names asked (.ok a))
    (h' : Course oracle (before ++ names) names' asked' r) :
    Course oracle before (names ++ names') (asked ++ asked') r := by
  generalize hr : Except.ok a = result at h
  induction h with
  | value before x => rwa [List.append_nil] at h'
  | zeroDivisor before names => cases hr
  | raised _ => cases hr
  | found hfound _ ih =>
    apply Course.found hfound
    apply ih _ hr
    rwa [List.append_assoc]

end Course

/-- Asks the oracle, and writes the names down. -/
def asking (oracle : List String → String → Except ε Float) (name : String) :
    ExceptT ε (StateM (List String)) Float :=
  ExceptT.mk do
    let before ← get
    set (before ++ [name])
    return oracle before name

/-- A computation that looks up `names`, as its course tells. -/
def Courses (oracle : List String → String → Except ε Float) (names : List String) {α : Type}
    (x : ExceptT (Event ε) (StateM (List String)) α) : Prop :=
  ∀ before, ∃ r asked, x.run.run before = (r, before ++ asked) ∧ Course oracle before names asked r

variable {oracle : List String → String → Except ε Float}

/-- One computation asks after another. -/
theorem courses_bind {names names' : List String} {α β : Type}
    {x : ExceptT (Event ε) (StateM (List String)) α}
    {k : α → ExceptT (Event ε) (StateM (List String)) β} (hx : Courses oracle names x)
    (hk : ∀ a, Courses oracle names' (k a)) : Courses oracle (names ++ names') (x >>= k) := by
  intro before
  obtain ⟨r, asked, hrun, hcourse⟩ := hx before
  cases r with
  | error event =>
    refine ⟨.error event, asked, ?_, hcourse.stop names'⟩
    rw [ExceptT.run_bind, StateT.run_bind, hrun]
    rfl
  | ok a =>
    obtain rfl := hcourse.asked_eq
    obtain ⟨r, asked', hrun', hcourse'⟩ := hk a (before ++ asked)
    refine ⟨r, asked ++ asked', ?_, hcourse.append hcourse'⟩
    rw [ExceptT.run_bind, StateT.run_bind, hrun, ← List.append_assoc]
    exact hrun'

theorem courses_apply (o : Expr.Op) (a b : Float) :
    Courses oracle [] (doubles.apply o a b) := by
  intro before
  have happly : ∃ r, (doubles.apply o a b : ExceptT (Event ε) (StateM (List String)) Float).run.run
      before = (r, before) ∧ Course oracle before [] [] r := by
    cases o with
    | add => exact ⟨_, rfl, .value before _⟩
    | sub => exact ⟨_, rfl, .value before _⟩
    | mul => exact ⟨_, rfl, .value before _⟩
    | div =>
      simp only [Arithmetic.apply, doubles]
      split
      · exact ⟨_, rfl, .zeroDivisor before []⟩
      · exact ⟨_, rfl, .value before _⟩
  obtain ⟨r, hrun, hcourse⟩ := happly
  exact ⟨r, [], by rw [hrun, List.append_nil], hcourse⟩

/-- The variable that a typed symbol is, in normal form. -/
def occurrence? (naming : Naming) : Symbol Term → Option String
  | .operand (.variable name) => some (naming.normalize (String.ofList name))
  | _ => none

/-- The variables of a row of typed symbols, in the order in which they stand, each as often as it
stands there. -/
def occurrences (naming : Naming) (symbols : List (Symbol Term)) : List String :=
  symbols.filterMap (occurrence? naming)

theorem occurrences_append (naming : Naming) (xs ys : List (Symbol Term)) :
    occurrences naming (xs ++ ys) = occurrences naming xs ++ occurrences naming ys :=
  List.filterMap_append

theorem occurrences_opening (naming : Naming) (xs : List (Symbol Term)) :
    occurrences naming (.opening :: xs) = occurrences naming xs := rfl

theorem occurrences_op (naming : Naming) (o : Expr.Op) (xs : List (Symbol Term)) :
    occurrences naming (.op o :: xs) = occurrences naming xs := rfl

/-- An operand asks for its name, if it has one. -/
theorem courses_denote (naming : Naming) (t : Term) :
    Courses oracle (occurrences naming [.operand t]) (denote naming (asking oracle) t) := by
  intro before
  cases t with
  | numeral n => exact ⟨_, [], by rw [List.append_nil]; rfl, .value before _⟩
  | «variable» name =>
    let normal := naming.normalize (String.ofList name)
    have hrun : (denote naming (asking oracle) (.variable name)).run.run before
        = ((oracle before normal).mapError (Event.raised normal), before ++ [normal]) := rfl
    cases hfound : oracle before normal with
    | ok x => exact ⟨_, [normal], by rw [hrun, hfound]; rfl, .found hfound (.value _ x)⟩
    | error e => exact ⟨_, [normal], by rw [hrun, hfound]; rfl, .raised hfound⟩

/-- Two computations and what an operator makes of their results. -/
theorem courses_op {naming : Naming} {x y : ExceptT (Event ε) (StateM (List String)) Float}
    {xs ys : List (Symbol Term)} (o : Expr.Op) (hx : Courses oracle (occurrences naming xs) x)
    (hy : Courses oracle (occurrences naming ys) y) :
    Courses oracle (occurrences naming (xs ++ .op o :: ys))
      (x >>= fun a => y >>= fun b => doubles.apply o a b) := by
  rw [occurrences_append, occurrences_op, ← List.append_nil (occurrences naming ys)]
  apply courses_bind hx
  intro a
  apply courses_bind hy
  intro b
  exact courses_apply o a b

/-- Evaluation looks up the variables of a phrase in the order in which they stand. -/
theorem courses_eval (oracle : List String → String → Except ε Float) (naming : Naming)
    {rank : Rank} (e : Phrase Term rank) : Courses oracle (occurrences naming e.symbols)
      (e.eval doubles (denote naming (asking oracle))) := by
  induction e with
  | operand t => exact courses_denote naming t
  | group e ih =>
    rw [Phrase.symbols, occurrences_append, occurrences_opening]
    exact (List.append_nil _).symm ▸ ih
  | factor f ih => exact ih
  | multiply t divides f iht ihf => exact courses_op _ iht ihf
  | product t ih => exact ih
  | sum e subtracts t ihe iht => exact courses_op _ ihe iht

/-! ### Canonical tokens -/

/-- The operand that the text of a canonical token stands for: a variable if it is an identifier,
else the number that it reads as. -/
def Atom.ofText? (text : List Char) : Option Atom :=
  if isIdentifier (String.ofList text) then some (.variable (String.ofList text))
  else (Number.read? text).map .number

/-- A text that begins like a name or a numeral is an operand. -/
theorem ofFragment_of_isIdentifierPart {c : Char} (h : isIdentifierPart c = true) (cs : List Char) :
    Symbol.ofFragment (c :: cs) = .operand (c :: cs) := by
  cases cs with
  | nil => rw [Symbol.ofFragment, ofChar?_of_isIdentifierPart h, Option.getD_none]
  | cons d cs => rfl

/-- The text of a finite number that is not negative begins with a digit, and so with no name. -/
theorem ofText?_render {x : Float} (hfinite : Number.isFinite x = true)
    (hsign : Number.isNegative x = false) :
    (∃ c cs, Number.render [] x = c :: cs ∧ isIdentifierPart c = true)
      ∧ Atom.ofText? (Number.render [] x) = some (.number x) := by
  obtain ⟨n, hn, -, htext⟩ := Number.exists_numeral_render hfinite
  rw [hsign, if_neg Bool.false_ne_true] at htext
  obtain ⟨c, cs, hcs, hc⟩ := hn.exists_cons
  rw [hcs] at htext
  have hpart : isIdentifierPart c = true := by simp [isIdentifierPart, Char.isAlphanum, hc]
  have hname : ¬ isIdentifier (String.ofList (Number.render [] x)) = true := by
    rw [htext]
    simp [isIdentifier, not_isIdentifierStart_of_isDigit hc]
  refine ⟨⟨c, cs, htext, hpart⟩, ?_⟩
  rw [Atom.ofText?, if_neg hname, Number.read?_render hfinite, Option.map_some]

/-- The text of what an accepted operand stands for begins like no other symbol, and stands for the
same. -/
theorem ofText?_meaning {naming : Naming} {t : Term} (h : Accepts naming t) :
    (∃ c cs, (meaning naming t).text = c :: cs ∧ isIdentifierPart c = true)
      ∧ Atom.ofText? (meaning naming t).text = some (meaning naming t) := by
  cases t with
  | «variable» name =>
    simp only [meaning, Atom.text, Atom.ofText?, String.ofList_toList, if_pos h.1, and_true]
    obtain ⟨c, cs, hcs, hstart, -⟩ := exists_cons_of_isIdentifier h.1
    exact ⟨c, cs, hcs, isIdentifierPart_of_start hstart⟩
  | numeral n =>
    exact ofText?_render h
      (Number.isNegative_ofMagnitude false (Number.Decimal.nearest_le_infinity _))

/-- Each token of a formula, taken by itself, stands for the symbol of which it is the text. -/
theorem tokens_meaning {naming : Naming} {symbols : List (Symbol Term)}
    (h : AllAccepted naming symbols) :
    (tokens ⟨symbols.map (Symbol.map (meaning naming))⟩).map (fun token =>
        (Symbol.ofFragment token.toList).map Atom.ofText?)
      = symbols.map (Symbol.map fun t => some (meaning naming t)) := by
  simp only [tokens, List.map_map]
  apply List.map_congr_left
  intro s hs
  simp only [Function.comp_apply, String.toList_ofList]
  cases s with
  | opening => rfl
  | closing => rfl
  | op o => cases o <;> rfl
  | operand t =>
    obtain ⟨⟨c, cs, htext, hc⟩, hread⟩ := ofText?_meaning (h t hs)
    simp only [Symbol.map, Symbol.text]
    rw [htext] at hread ⊢
    simp only [ofFragment_of_isIdentifierPart hc, hread]

/-! ### The outcome -/

/-- What a formula comes to, said of a phrase: what is reported of the phrase, in every monad in
which the lookups may be done, where a lookup is done for each variable in the order in which they
stand, until something stops the evaluation. -/
structure Reports (naming : Naming) (f : Formula) (e : Phrase Term .sum) : Prop where
  outcome : ∀ {m : Type → Type} [Monad m] [LawfulMonad m] {ε : Type} (is : ε → Kind → Bool)
    (lookup : String → ExceptT ε m Float),
    (f.evaluateWith is lookup).run = report is <$> (e.eval doubles (denote naming lookup)).run
  course : ∀ {ε : Type} (is : ε → Kind → Bool) (oracle : List String → String → Except ε Float),
    ∃ r asked, (e.eval doubles (denote naming (asking oracle))).run.run [] = (r, asked)
      ∧ Course oracle [] (occurrences naming e.symbols) asked r
      ∧ (f.evaluateWith is (asking oracle)).run.run [] = (report is r, asked)
      ∧ ∀ fault, report is r ≠ .ok (.error (.malformed fault))

/-- A formula that has been read comes to what is reported of its text: the text is that of a
phrase, and of each phrase that it is the text of the formula reports the first event that stops it,
or its value. The canonical tokens stand for what was typed. -/
theorem evaluateWith_reports {naming : Naming} {text : String} {f : Formula}
    (h : parse naming text = .ok f) :
    (∃ e : Phrase Term .sum, Scanned text.toList e.symbols)
      ∧ ∀ e : Phrase Term .sum, Scanned text.toList e.symbols → Reports naming f e
        ∧ f.tokens.map (fun token => (Symbol.ofFragment token.toList).map Atom.ofText?)
          = e.symbols.map (Symbol.map fun t => some (meaning naming t)) := by
  obtain ⟨symbols, hformula, hf⟩ := exists_isFormula_of_parse h
  obtain ⟨symbols'⟩ := f
  obtain rfl : symbols' = symbols.map (Symbol.map (meaning naming)) := hf
  constructor
  · obtain ⟨e, rfl⟩ := Expr.derives_iff_derivable.mp hformula.derives
    exact ⟨e, hformula.scanned⟩
  · intro e hscanned
    -- A text falls into its symbols in one way.
    obtain rfl : e.symbols = symbols :=
      Except.ok.inj ((scan_eq_ok_iff.mpr hscanned).symm.trans (scan_eq_ok_iff.mpr hformula.scanned))
    refine ⟨⟨?_, ?_⟩, tokens_meaning hformula.accepted⟩
    · intro m _ _ ε is lookup
      exact evaluateWith_eq is naming rfl lookup
    · intro ε is oracle
      obtain ⟨r, asked, hrun, hcourse⟩ := courses_eval oracle naming e []
      rw [List.nil_append] at hrun
      refine ⟨r, asked, hrun, hcourse, ?_, report_ne_malformed is r⟩
      rw [evaluateWith_eq is naming rfl, StateT.run_map, hrun]
      rfl

/-- Finds 1 in the first lookup, and fails in every other one. -/
def failingLater (before : List String) (_ : String) : Except Unit Float :=
  if before = [] then .ok 1 else .error ()

/-- In `A1+B1*C1` a division by zero behind `B1` is the value of the whole, and `C1` is not looked
up. -/
theorem evaluateWith_reports_zero_division :
    ∃ f, parse anyName "A1+B1*C1" = .ok f
      ∧ (f.evaluateWith (fun _ kind => kind == .zeroDivision) (asking failingLater)).run.run []
        = (.ok (.error .divisionByZero), ["A1", "B1"]) := by
  let cell (name : List Char) : Phrase Term .factor := .operand (.variable name)
  let e : Phrase Term .sum := .sum (.product (.factor (cell ['A', '1']))) false
    (.multiply (.factor (cell ['B', '1'])) false (cell ['C', '1']))
  have hparse : parse anyName "A1+B1*C1" = .ok ⟨[.operand (.variable "A1"), .op .add,
      .operand (.variable "B1"), .op .mul, .operand (.variable "C1")]⟩ := by cbv
  have hscanned : Scanned "A1+B1*C1".toList e.symbols := scan_eq_ok_iff.mp (by cbv)
  obtain ⟨r, asked, hrun, -, hvalue, -⟩ := ((evaluateWith_reports hparse).2 e hscanned).1.course
    (fun _ kind => kind == .zeroDivision) failingLater
  obtain ⟨rfl, rfl⟩ : r = .error (.raised "B1" ()) ∧ asked = ["A1", "B1"] :=
    Prod.mk.inj (hrun.symm.trans rfl)
  exact ⟨_, hparse, hvalue⟩

end Worksheet.Formula
