import Mathlib
import Worksheet.Proofs.Expr.Machine
import Worksheet.Proofs.Expr.Order

/-!
# What the machine conserves

The machine accepts more rows of symbols than expressions, but it loses no operand and no operator on
the way. Whatever the row, between two symbols the values on the stack, less the operators that wait,
are as many as the operands read so far, less the operators; and the parentheses that wait are those
that are still open.

* `satisfiesM_step`: what one symbol changes.
* `satisfiesM_value`: a row with a value is balanced, has one operand more than operators, and each of
  its operands has been found.
-/

namespace Worksheet.Expr

variable {m : Type → Type} [Monad m] {N α ε β : Type}

/-! ### Computations that fail

What is said of the values of a computation is true of one that has none, so a failure satisfies
everything.
-/

section
variable [LawfulMonad m] {P : β → Prop}

/-- A failure has no value to say anything of. -/
theorem satisfiesM_throw (e : ε) : SatisfiesM P (throw e : ExceptT ε m β) := by
  rw [SatisfiesM_ExceptT_eq]
  apply SatisfiesM.pure
  intro b hb
  cases hb

/-- What holds of the value of a computation holds of it still when failures are added. -/
theorem satisfiesM_lift {x : m β} (h : SatisfiesM P x) :
    SatisfiesM P (liftM x : ExceptT ε m β) := by
  rw [SatisfiesM_ExceptT_eq]
  apply SatisfiesM.map h
  rintro b hb _ ⟨⟩
  exact hb

end

namespace Machine

/-- How many parentheses are open. -/
def openings (s : Machine N) : Nat := s.pending.count .opening

/-- How many values there are more than operators that wait. -/
def surplus (s : Machine N) : Int := s.values.length - s.pending.countP (· ≠ .opening)

theorem openings_push (s : Machine N) (value : N) : (s.push value).openings = s.openings := rfl

/-- A parenthesis that is opened waits until it is closed. -/
theorem openings_hold_opening (s : Machine N) : (s.hold .opening).openings = s.openings + 1 := by
  simp [openings, hold]

theorem openings_hold_op (s : Machine N) (o : Op) : (s.hold (.op o)).openings = s.openings := by
  simp [openings, hold]

/-- A value more is one more than the operators. -/
theorem surplus_push (s : Machine N) (value : N) : (s.push value).surplus = s.surplus + 1 := by
  simp only [surplus, push, List.length_cons]
  omega

theorem surplus_hold_opening (s : Machine N) : (s.hold .opening).surplus = s.surplus := by
  simp [surplus, hold]

/-- An operator that waits takes one of two values away, in advance. -/
theorem surplus_hold_op (s : Machine N) (o : Op) : (s.hold (.op o)).surplus = s.surplus - 1 := by
  have hcount : (s.hold (.op o)).pending.countP (· ≠ .opening)
      = s.pending.countP (· ≠ .opening) + 1 := List.countP_cons_of_pos rfl
  rw [surplus, hcount, surplus]
  show (s.values.length : Int) - _ = _
  omega

/-- Two machines with the same open parentheses and the same surplus. -/
structure Even (s s' : Machine N) : Prop where
  openings : s'.openings = s.openings
  surplus : s'.surplus = s.surplus

variable [LawfulMonad m] {A : Arithmetic m N} {operand : α → m N} {P : α → Prop}

/-! ### Steps

A reduction is even: the operator that it takes had been counted against the value that it loses. So
only the symbols that are read change the balance, each by its weight.
-/

/-- A reduction takes one value and one operator away, or nothing. -/
theorem satisfiesM_reduce (due : Op → Bool) (s : Machine N) :
    SatisfiesM (Even s) (reduce A due s) := by
  have hsame : SatisfiesM (Even s) (pure s : ExceptT Malformed m (Machine N)) :=
    SatisfiesM.pure ⟨rfl, rfl⟩
  unfold reduce
  split
  · next o pending hpending =>
    split
    · split
      · next right left values hvalues =>
        have hs : s = ((((⟨pending, values⟩ : Machine N).push left).push right).hold (.op o)) := by
          obtain ⟨_, _⟩ := s
          cases hpending
          cases hvalues
          rfl
        apply SatisfiesM.bind_pre
        apply SatisfiesM.of_true
        intro value
        apply SatisfiesM.pure
        show Even s ((⟨pending, values⟩ : Machine N).push value)
        rw [hs]
        constructor
        · rw [openings_hold_op]
          rfl
        · rw [surplus_hold_op]
          simp only [surplus_push]
          omega
      · exact satisfiesM_throw _
    · exact hsame
  · exact hsame

/-- A closing parenthesis takes the opening one away and leaves the surplus. -/
theorem satisfiesM_close (s : Machine N) :
    SatisfiesM (fun s' => s.openings = s'.openings + 1 ∧ s'.surplus = s.surplus) (s.close A) := by
  unfold close
  split
  · next pending hpending =>
    have hs : s = ({ s with pending } : Machine N).hold .opening := by
      obtain ⟨_, _⟩ := s
      cases hpending
      rfl
    apply (satisfiesM_reduce _ _).imp
    rintro s' ⟨hopenings, hsurplus⟩
    rw [hopenings, hsurplus]
    constructor
    · conv_lhs => rw [hs]
      exact openings_hold_opening _
    · conv_rhs => rw [hs]
      exact (surplus_hold_opening _).symm
  · exact satisfiesM_throw _

/-- What one symbol changes: the surplus grows by its weight, parentheses open and close, and an
operand has been found. -/
structure Took (P : α → Prop) (s : Machine N) (x : Symbol α) (s' : Machine N) : Prop where
  surplus : s'.surplus = s.surplus + x.weight
  balanced : ∀ xs, Balanced s'.openings xs → Balanced s.openings (x :: xs)
  operand : ∀ a, x = .operand a → P a

/-- Whatever the machine has read before, a symbol changes its balance in the same way. -/
theorem satisfiesM_step (h : ∀ a, SatisfiesM (fun _ => P a) (operand a)) (s : Machine N)
    (x : Symbol α) : SatisfiesM (Took P s x) (step A operand s x) := by
  cases x with
  | opening =>
    rw [step_opening]
    apply SatisfiesM.pure
    refine ⟨?_, fun xs hxs => ?_, fun a ha => by cases ha⟩
    · rw [surplus_hold_opening]
      exact (add_zero _).symm
    · rwa [openings_hold_opening] at hxs
  | closing =>
    rw [step_closing]
    apply (satisfiesM_reduce _ s).bind
    intro s₁ h₁
    apply (satisfiesM_close s₁).imp
    rintro s' ⟨hopenings, hsurplus⟩
    rw [h₁.openings] at hopenings
    refine ⟨?_, fun xs hxs => ?_, fun a ha => by cases ha⟩
    · rw [hsurplus, h₁.surplus]
      exact (add_zero _).symm
    · rw [hopenings]
      exact ⟨Nat.succ_pos _, hxs⟩
  | op o =>
    have hhold : ∀ s₁ : Machine N, Even s s₁ →
        SatisfiesM (Took P s (.op o)) (pure (s₁.hold (.op o)) : ExceptT Malformed m (Machine N)) := by
      intro s₁ h₁
      apply SatisfiesM.pure
      refine ⟨?_, fun xs hxs => ?_, fun a ha => by cases ha⟩
      · rw [surplus_hold_op, h₁.surplus]
        rfl
      · rwa [openings_hold_op, h₁.openings] at hxs
    rw [step_op]
    split
    · exact (satisfiesM_reduce _ s).bind hhold
    · exact hhold s ⟨rfl, rfl⟩
  | operand a =>
    rw [step_operand]
    apply (satisfiesM_lift (h a)).bind
    intro value ha
    apply (satisfiesM_reduce _ _).imp
    rintro s' ⟨hopenings, hsurplus⟩
    refine ⟨?_, fun xs hxs => ?_, ?_⟩
    · rw [hsurplus, surplus_push]
      rfl
    · rwa [hopenings, openings_push] at hxs
    · rintro _ ⟨⟩
      exact ha

/-- A value is left at the end only if nothing is open and the surplus is one. -/
theorem satisfiesM_finish (s : Machine N) :
    SatisfiesM (fun _ => s.openings = 0 ∧ s.surplus = 1) (s.finish A) := by
  rw [finish_eq]
  apply (satisfiesM_reduce _ s).bind
  rintro ⟨pending, values⟩ ⟨hopenings, hsurplus⟩
  rw [← hopenings, ← hsurplus]
  unfold left
  cases pending with
  | nil =>
    match values with
    | [] => exact satisfiesM_throw _
    | [value] => exact SatisfiesM.pure ⟨rfl, rfl⟩
    | _ :: _ :: _ => exact satisfiesM_throw _
  | cons p pending => cases p <;> exact satisfiesM_throw _

end Machine

/-! ### Whole rows

The balances of the single symbols add up over a row, by induction from its front.
-/

/-- What the machine tells of a row that it finds a value for, behind what made it `s`. -/
structure Conserved (P : α → Prop) (s : Machine N) (xs : List (Symbol α)) : Prop where
  balanced : Balanced s.openings xs
  surplus : s.surplus + surplus xs = 1
  operands : ∀ a, .operand a ∈ xs → P a

variable [LawfulMonad m] {A : Arithmetic m N} {operand : α → m N} {P : α → Prop}

/-- From any state of the machine on, the rest of a row has a value only if it closes what is open
and makes the surplus one. -/
theorem satisfiesM_run (h : ∀ a, SatisfiesM (fun _ => P a) (operand a)) (s : Machine N)
    (xs : List (Symbol α)) :
    SatisfiesM (fun _ => Conserved P s xs) (s.run A operand xs >>= fun s => s.finish A) := by
  induction xs generalizing s with
  | nil =>
    rw [Machine.run_nil, pure_bind]
    apply (Machine.satisfiesM_finish s).imp
    rintro - ⟨hopenings, hsurplus⟩
    exact ⟨hopenings, by rwa [surplus_nil, add_zero], fun a ha => by cases ha⟩
  | cons x xs ih =>
    rw [Machine.run_cons, bind_assoc]
    apply (Machine.satisfiesM_step h s x).bind
    intro s' hx
    apply (ih s').imp
    rintro - hxs
    refine ⟨hx.balanced xs hxs.balanced, ?_, fun a ha => ?_⟩
    · rw [surplus_cons, ← add_assoc, ← hx.surplus]
      exact hxs.surplus
    · rcases List.mem_cons.mp ha with ha | ha
      · exact hx.operand a ha.symm
      · exact hxs.operands a ha

/-- A row with a value is balanced and has one operand more than operators, and each of its operands
has been found. -/
theorem satisfiesM_value (h : ∀ a, SatisfiesM (fun _ => P a) (operand a)) (xs : List (Symbol α)) :
    SatisfiesM (fun _ => Conserved P (Machine.initial : Machine N) xs) (value A operand xs) :=
  satisfiesM_run h .initial xs

end Worksheet.Expr
