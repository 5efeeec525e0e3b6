import Worksheet.Proofs.Expr.Calls

/-!
# Texts that are evaluated

Which texts have a value as expressions over whole numbers. The machine tells faults from the stacks
alone, so it takes an operand that stands in a wrong place for one that is missing elsewhere: `2 3 -`
has a value, as if the operator stood between its operands. That is the only fault it overlooks.

* `journal`: an evaluation with its calls written down, and `Failure.DueTo`: what a failure is due to,
  as those calls show.
* `evaluate_separated`: a text with a value is an expression, unless an operand begins where another has
  just ended; other texts are refused for a fault, unless a zero divisor or a number that is too long
  has been met before.
* `evaluate_operator_last`: there is a text with a value that is no expression.
-/

namespace Worksheet.Expr.Integer

variable {σ : Type}

/-! ### Expressions -/

/-- Whether a text is a whole number or a variable. -/
def IsOperand (text : List Char) : Prop :=
  (text ≠ [] ∧ text.all Char.isDigit = true) ∨ isCellName (String.ofList text) = true

/-- Whether a text is an expression over whole numbers and variables. -/
structure IsExpression (text : String) : Prop where
  derivable : Phrase.Derivable (symbols text.toList)
  operands : ∀ a, Symbol.operand a ∈ symbols text.toList → IsOperand a

/-- A text that the machine finds a value for is an expression if and only if no operand begins where
another has just ended. -/
theorem isExpression_iff_separated {text : String}
    (h : Conserved IsOperand (Machine.initial : Machine Int) (symbols text.toList)) :
    IsExpression text ↔ Separated false (symbols text.toList) := by
  have hsurplus : surplus (symbols text.toList) = 1 := by
    rw [← h.surplus]
    exact (zero_add _).symm
  rw [← derivable_iff_separated h.balanced hsurplus]
  constructor
  · intro hexpression
    exact hexpression.derivable
  · intro hderivable
    exact ⟨hderivable, h.operands⟩

/-! ### Evaluation

Looking a variable up always finds a number, which may depend on what has been looked up before. The
calls for operands and quotients are written down in the order in which they are made, so what is met
first stands first, and a call that fails stands last.
-/

/-- What the evaluation of a text ends with. -/
def outcome (resolve : String → StateM σ Int) (memory : σ) (text : String) : Except Failure Int :=
  ((evaluate resolve text).run.run memory).1

/-- What an evaluation ends with, given how the machine ends. -/
def settled : Except Failure (Except Malformed Int) → Except Failure Int
  | .ok (.ok n) => .ok n
  | .ok (.error fault) => .error (.malformed fault)
  | .error e => .error e

/-- What the evaluation of a text ends with, and the calls that it makes until then. -/
def journal (resolve : String → StateM σ Int) (memory : σ) (text : String) :
    Except Failure Int × List (Entry Failure Int (List Char)) :=
  let (result, _, calls) := ending (Expr.value (arithmetic.noted (List Char))
    (notedOperand (operand resolve)) (symbols text.toList)) (memory, [])
  (settled result, calls)

/-- What a failure is due to, as the calls show that have been made. The row of symbols is malformed,
and no call has failed; or the last call is the only one that has failed, and asks for an operand that
is neither a number nor a variable, for a number of too many digits, or for a quotient by zero. -/
inductive Failure.DueTo (calls : List (Entry Failure Int (List Char))) : Failure → Prop
  | malformed (fault : Malformed) : Answered calls → DueTo calls (.malformed fault)
  | invalidToken {before : List (Entry Failure Int (List Char))} {text : List Char} :
    Answered before → calls = before ++ [⟨.operand text, .error (.invalidToken text)⟩] →
    ¬ IsOperand text → DueTo calls (.invalidToken text)
  | overlong {before : List (Entry Failure Int (List Char))} {text : List Char} :
    Answered before → calls = before ++ [⟨.operand text, .error .overlong⟩] →
    text.all Char.isDigit = true → maxDigits < text.length → DueTo calls .overlong
  | divisionByZero {before : List (Entry Failure Int (List Char))} {left : Int} :
    Answered before → calls = before ++ [⟨.quotient left 0, .error .divisionByZero⟩] →
    DueTo calls .divisionByZero

variable {resolve : String → StateM σ Int} {memory : σ} {text : String}

/-- An evaluation ends as the machine does. -/
theorem outcome_eq (resolve : String → StateM σ Int) (memory : σ) (text : String) :
    outcome resolve memory text
      = settled (ending (Expr.value arithmetic (operand resolve) (symbols text.toList)) memory).1 := by
  unfold outcome evaluate value ending
  rw [ExceptT.run_bind, StateT.run_bind]
  rcases (Expr.value arithmetic (operand resolve) (symbols text.toList)).run.run.run memory with
    ⟨e | fault | n, memory'⟩ <;> rfl

/-- A number comes of nothing but a value of the machine. -/
theorem settled_eq_ok {result : Except Failure (Except Malformed Int)} {n : Int}
    (h : settled result = .ok n) : result = .ok (.ok n) := by
  match result with
  | .ok (.ok n') =>
    cases h
    rfl
  | .ok (.error fault) => cases h
  | .error e => cases h

/-- Only an operand has a number. -/
theorem satisfiesM_operand (resolve : String → StateM σ Int) (text : List Char) :
    SatisfiesM (fun _ => IsOperand text) (operand resolve text) := by
  unfold operand
  split
  · next hdigits =>
    split
    · exact satisfiesM_throw _
    · exact SatisfiesM.pure (.inl hdigits)
  · split
    · next hname => exact satisfiesM_lift (SatisfiesM.of_true fun _ => .inr hname)
    · exact satisfiesM_throw _

/-- A text with a value is conserved as a row of symbols. -/
theorem conserved_of_outcome {n : Int} (h : outcome resolve memory text = .ok n) :
    Conserved IsOperand (Machine.initial : Machine Int) (symbols text.toList) := by
  rw [outcome_eq] at h
  exact conserved_of_ending (satisfiesM_operand resolve) (Prod.ext (settled_eq_ok h) rfl)

/-! ### Failures -/

/-- An operand that fails is too long, or it is none. -/
theorem operand_eq_error {text : List Char} {e : Failure}
    (h : ((operand resolve text).run.run memory).1 = .error e) :
    (e = .overlong ∧ text.all Char.isDigit = true ∧ maxDigits < text.length)
      ∨ e = .invalidToken text ∧ ¬ IsOperand text := by
  unfold operand at h
  split at h
  · next hdigits =>
    split at h
    · next hlong =>
      cases h
      exact .inl ⟨rfl, hdigits.2, hlong⟩
    · cases h
  · next hdigits =>
    split at h
    · cases h
    · next hname =>
      cases h
      exact .inr ⟨rfl, not_or.mpr ⟨hdigits, hname⟩⟩

/-- A quotient that fails has zero for its divisor. -/
theorem div_eq_error {left right : Int} {e : Failure}
    (h : (((arithmetic (m := StateM σ)).div left right).run.run memory).1 = .error e) :
    e = .divisionByZero ∧ right = 0 := by
  by_cases hright : right = 0
  · subst hright
    cases h
    exact ⟨rfl, rfl⟩
  · have hdiv : divide left right = pure (left.tdiv right) := if_neg hright
    unfold arithmetic at h
    dsimp only at h
    rw [hdiv] at h
    cases h

/-- A failure is due to the call that has been made last, or to the row of symbols. -/
theorem dueTo_of_told {result : Except Failure (Except Malformed Int)} {operands : List (List Char)}
    {divisions : Nat} {left : Int → Nat} {calls : List (Entry Failure Int (List Char))}
    (h : Told (Call.answer arithmetic (operand resolve)) operands divisions left result calls)
    {e : Failure} (he : settled result = .error e) : e.DueTo calls := by
  match result with
  | .ok (.ok n) => cases he
  | .ok (.error fault) =>
    cases he
    exact .malformed fault (h.answered _ rfl)
  | .error e' =>
    cases he
    obtain ⟨before, call, hcalls, hbefore⟩ := h.raised e rfl
    obtain ⟨memory, hanswer⟩ := h.honest ⟨call, .error e⟩ (hcalls ▸ List.mem_append_right _
      (List.mem_singleton_self _))
    cases call with
    | operand text =>
      rcases operand_eq_error hanswer.symm with ⟨rfl, hdigits, hlong⟩ | ⟨rfl, htext⟩
      · exact .overlong hbefore hcalls hdigits hlong
      · exact .invalidToken hbefore hcalls htext
    | quotient left right =>
      obtain ⟨rfl, rfl⟩ := div_eq_error hanswer.symm
      exact .divisionByZero hbefore hcalls

/-- A text with a value is an expression, unless an operand begins where another has just ended; and
where none does, every text that is no expression is refused. It is refused for what it is, as malformed
or for a token that is no operand, unless before that a quotient by zero has been asked for, or an operand
of too many digits. The operands are asked for in the order in which they stand. -/
theorem evaluate_separated (resolve : String → StateM σ Int) (memory : σ) (text : String) :
    (∀ n, outcome resolve memory text = .ok n →
      (IsExpression text ↔ Separated false (symbols text.toList)))
    ∧ (Separated false (symbols text.toList) → ¬ IsExpression text →
      ∃ e, outcome resolve memory text = .error e)
    ∧ ∃ calls, journal resolve memory text = (outcome resolve memory text, calls)
      ∧ asked calls <+: (symbols text.toList).filterMap Symbol.operand?
      ∧ ∀ e, outcome resolve memory text = .error e → e.DueTo calls := by
  have haccepted : ∀ n, outcome resolve memory text = .ok n →
      (IsExpression text ↔ Separated false (symbols text.toList)) := by
    intro n hn
    exact isExpression_iff_separated (conserved_of_outcome hn)
  refine ⟨haccepted, ?_, ?_⟩
  · intro hseparated hexpression
    cases hresult : outcome resolve memory text with
    | ok n => exact absurd ((haccepted n hresult).mpr hseparated) hexpression
    | error e => exact ⟨e, rfl⟩
  · obtain ⟨result, memory', calls, hend, hnoted, htold⟩ :=
      owes_value arithmetic (operand resolve) (symbols text.toList) memory []
    have houtcome : outcome resolve memory text = settled result := by
      rw [outcome_eq, hend]
    refine ⟨calls, ?_, htold.asked, ?_⟩
    · rw [journal, hnoted, houtcome]
      rfl
    · intro e he
      exact dueTo_of_told htold (houtcome ▸ he)

/-- `(a1+2)*3` has a value, and is an expression. -/
theorem evaluate_separated_group :
    outcome (fun _ => pure 4) () "(a1+2)*3" = .ok 18 ∧ IsExpression "(a1+2)*3" := by
  have hvalue : outcome (fun _ => pure 4) () "(a1+2)*3" = .ok 18 := by cbv
  have hsymbols : symbols "(a1+2)*3".toList
      = [.opening, .operand ['a', '1'], .op .add, .operand ['2'], .closing, .op .mul,
        .operand ['3']] := by cbv
  refine ⟨hvalue, ((evaluate_separated _ () "(a1+2)*3").1 18 hvalue).mpr ?_⟩
  rw [hsymbols]
  exact ⟨rfl, rfl, rfl, rfl, trivial⟩

/-- `2 3 -` has a value, and is no expression. -/
theorem evaluate_operator_last :
    outcome (fun _ => pure 0) () "2 3 -" = .ok (-1) ∧ ¬ IsExpression "2 3 -" := by
  have hvalue : outcome (fun _ => pure 0) () "2 3 -" = .ok (-1) := by cbv
  have hsymbols : symbols "2 3 -".toList = [.operand ['2'], .operand ['3'], .op .sub] := by cbv
  refine ⟨hvalue, fun h => ?_⟩
  have hordered := derivable_iff_ordered.mp h.derivable
  rw [hsymbols] at hordered
  -- Behind the first operand an operator is to stand.
  cases hordered.2.1

end Worksheet.Expr.Integer
