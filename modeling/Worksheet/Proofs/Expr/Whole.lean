import Worksheet.Expr.Integer
import Worksheet.Proofs.Expr.Machine
import Worksheet.Proofs.Expr.Phrase

/-!
# Values over whole numbers

What the value of a phrase over whole numbers is, said without a program that finds it. Operands are
looked up from left to right and may change a memory. A quotient is known from what it leaves over.
There is no value once a divisor is zero, and then nothing more is looked up.

* `IsQuotient`: what a quotient leaves over. There is one for each divisor but zero.
* `Yields`: the value of a phrase, or that it has none, and the memory at the end.
* `computes_value`: the machine finds the value of a phrase if there is one, else a division by zero.
-/

namespace Worksheet.Expr.Integer

variable {σ α : Type}

/-! ### Quotients

A quotient is what division with truncation gives, but is said here without dividing: by the size
and the sign of what it leaves over.
-/

/-- What a quotient leaves over is smaller than the divisor, and is zero or has the sign of the
dividend. -/
structure IsQuotient (a b q : Int) : Prop where
  small : |a - q * b| < |b|
  sign : a - q * b = 0 ∨ (a - q * b).sign = a.sign

variable {a b q q' : Int}

theorem IsQuotient.nonneg (h : IsQuotient a b q) (ha : 0 ≤ a) : 0 ≤ a - q * b := by
  rcases h.sign with hzero | hsign
  · exact hzero.ge
  · rwa [← Int.sign_nonneg_iff, hsign, Int.sign_nonneg_iff]

theorem IsQuotient.nonpos (h : IsQuotient a b q) (ha : a ≤ 0) : a - q * b ≤ 0 := by
  rcases h.sign with hzero | hsign
  · exact hzero.le
  · rwa [← Int.sign_nonpos_iff, hsign, Int.sign_nonpos_iff]

/-- There are no two quotients. -/
theorem IsQuotient.unique (h : IsQuotient a b q) (h' : IsQuotient a b q') : q = q' := by
  have hdiff : (a - q * b) - (a - q' * b) = (q' - q) * b := by ring
  have hsmall : |(q' - q) * b| < |b| := by
    rw [← hdiff]
    obtain ⟨hlow, hhigh⟩ := abs_lt.mp h.small
    obtain ⟨hlow', hhigh'⟩ := abs_lt.mp h'.small
    rcases le_total 0 a with ha | ha
    · have := h.nonneg ha
      have := h'.nonneg ha
      rw [abs_lt]
      omega
    · have := h.nonpos ha
      have := h'.nonpos ha
      rw [abs_lt]
      omega
  rw [abs_mul] at hsmall
  have hb : 0 < |b| := (abs_nonneg _).trans_lt h.small
  have hone : |q' - q| < 1 := by
    by_contra hle
    have hmul := le_mul_of_one_le_left hb.le (not_lt.mp hle)
    exact absurd hsmall hmul.not_gt
  have := Int.abs_lt_one_iff.mp hone
  omega

/-- Division with truncation gives a quotient. -/
theorem isQuotient_tdiv (a : Int) (hb : b ≠ 0) : IsQuotient a b (a.tdiv b) := by
  have hrest : a - a.tdiv b * b = a.tmod b := by rw [Int.tmod_def, mul_comm]
  refine ⟨?_, ?_⟩
  · rw [hrest, Int.abs_eq_natAbs, Int.abs_eq_natAbs, Int.natAbs_tmod]
    exact_mod_cast Nat.mod_lt _ (Int.natAbs_pos.mpr hb)
  · rw [hrest]
    rcases lt_trichotomy a 0 with ha | rfl | ha
    · have hneg := Int.tmod_nonneg b (Int.neg_nonneg_of_nonpos ha.le)
      rw [Int.neg_tmod] at hneg
      rw [Int.sign_eq_neg_one_of_neg ha]
      rcases (show a.tmod b ≤ 0 by omega).lt_or_eq with hlt | hzero
      · exact .inr (Int.sign_eq_neg_one_of_neg hlt)
      · exact .inl hzero
    · exact .inl (Int.zero_tmod b)
    · rw [Int.sign_eq_one_of_pos ha]
      rcases (Int.tmod_nonneg b ha.le).lt_or_eq with hlt | hzero
      · exact .inr (Int.sign_eq_one_of_pos hlt)
      · exact .inl hzero.symm

/-- Division with truncation gives the only quotient. -/
theorem isQuotient_iff (hb : b ≠ 0) : IsQuotient a b q ↔ q = a.tdiv b := by
  constructor
  · intro h
    exact h.unique (isQuotient_tdiv a hb)
  · rintro rfl
    exact isQuotient_tdiv a hb

/-! ### Values

A relation, so that it need not be known beforehand that each phrase comes to something, and to one
thing only.
-/

/-- What an operator makes of two numbers, if anything. -/
inductive Applies : Op → Int → Int → Option Int → Prop
  | add (a b : Int) : Applies .add a b (some (a + b))
  | sub (a b : Int) : Applies .sub a b (some (a - b))
  | mul (a b : Int) : Applies .mul a b (some (a * b))
  | div {a b q : Int} : b ≠ 0 → IsQuotient a b q → Applies .div a b (some q)
  | zero (a : Int) : Applies .div a 0 none

/-- What a computation may come to: from a memory, a number or none, and a memory. -/
abbrev Outcomes (σ : Type) := σ → Option Int → σ → Prop

/-- One number, then another, and what is made of both. Where there is no number, nothing follows. -/
inductive Joined (makes : Int → Int → Option Int → Prop) (left right : Outcomes σ) : Outcomes σ
  | left {memory memory' : σ} : left memory none memory' →
    Joined makes left right memory none memory'
  | right {memory between memory' : σ} {a : Int} : left memory (some a) between →
    right between none memory' → Joined makes left right memory none memory'
  | both {memory between memory' : σ} {a b : Int} {result : Option Int} :
    left memory (some a) between → right between (some b) memory' → makes a b result →
    Joined makes left right memory result memory'

/-- What a phrase may come to, where `finds` tells what an operand may come to. -/
def Yields (finds : α → Outcomes σ) : {rank : Rank} → Phrase α rank → Outcomes σ
  | _, .operand a => finds a
  | _, .group e => Yields finds e
  | _, .factor f => Yields finds f
  | _, .multiply t divides f =>
    Joined (Applies (Phrase.multiplier divides)) (Yields finds t) (Yields finds f)
  | _, .product t => Yields finds t
  | _, .sum e subtracts t =>
    Joined (Applies (Phrase.summand subtracts)) (Yields finds e) (Yields finds t)

/-! ### Evaluation -/

/-- How an evaluation ends: with a number, or else with a division by zero. -/
def answer : Option Int → Except Failure Int
  | some n => .ok n
  | none => .error .divisionByZero

theorem answer_injective : Function.Injective answer := by
  intro r r' h
  cases r with
  | none =>
    cases r' with
    | none => rfl
    | some n => cases h
  | some n =>
    cases r' with
    | none => cases h
    | some n' =>
      cases h
      rfl

/-- There is something that a computation may come to, and whatever it may come to, it comes to. -/
structure Computes (x : ExceptT Failure (StateM σ) Int) (outcomes : Outcomes σ) : Prop where
  ends : ∀ memory, ∃ result memory', outcomes memory result memory'
  run : ∀ memory result memory', outcomes memory result memory' →
    x.run.run memory = (answer result, memory')

/-- So there is only one thing that it may come to. -/
theorem Computes.exists_iff {x : ExceptT Failure (StateM σ) Int} {outcomes : Outcomes σ}
    (h : Computes x outcomes) (memory : σ) :
    ∃ result memory', x.run.run memory = (answer result, memory')
      ∧ ∀ r m, outcomes memory r m ↔ r = result ∧ m = memory' := by
  obtain ⟨result, memory', hend⟩ := h.ends memory
  have hrun := h.run _ _ _ hend
  refine ⟨result, memory', hrun, fun r m => ⟨fun hother => ?_, ?_⟩⟩
  · have hsame := (h.run _ _ _ hother).symm.trans hrun
    rw [Prod.mk.injEq] at hsame
    exact ⟨answer_injective hsame.1, hsame.2⟩
  · rintro ⟨rfl, rfl⟩
    exact hend

/-! ### The arithmetic

One operation at a time, and what it makes of computations that may have no number. With this the
relation and the program agree at every node of a phrase.
-/

/-- An operator makes a number of any two, or nothing. -/
theorem exists_applies (o : Op) (a b : Int) : ∃ result, Applies o a b result := by
  cases o with
  | add => exact ⟨_, .add a b⟩
  | sub => exact ⟨_, .sub a b⟩
  | mul => exact ⟨_, .mul a b⟩
  | div =>
    by_cases hb : b = 0
    · exact ⟨none, hb ▸ .zero a⟩
    · exact ⟨_, .div hb (isQuotient_tdiv a hb)⟩

/-- The arithmetic of the machine makes the same. -/
theorem run_apply {o : Op} {a b : Int} {result : Option Int} (h : Applies o a b result)
    (memory : σ) :
    (arithmetic.apply o a b : ExceptT Failure (StateM σ) Int).run.run memory
      = (answer result, memory) := by
  cases h with
  | add => rfl
  | sub => rfl
  | mul => rfl
  | div hb hq =>
    have hdivide : divide a b = .ok (a.tdiv b) := if_neg hb
    rw [(isQuotient_iff hb).mp hq]
    show (liftM (divide a b) : ExceptT Failure (StateM σ) Int).run.run memory = _
    rw [hdivide]
    rfl
  | zero => rfl

variable {x y : ExceptT Failure (StateM σ) Int} {left right : Outcomes σ}

/-- Where there is no number, nothing more is done. -/
theorem run_bind_of_none {f : Int → ExceptT Failure (StateM σ) Int} {memory memory' : σ}
    (h : x.run.run memory = (answer none, memory')) :
    (x >>= f).run.run memory = (answer none, memory') := by
  rw [ExceptT.run_bind, StateT.run_bind, h]
  rfl

theorem run_bind_of_some {f : Int → ExceptT Failure (StateM σ) Int} {memory memory' : σ} {a : Int}
    (h : x.run.run memory = (answer (some a), memory')) :
    (x >>= f).run.run memory = (f a).run.run memory' := by
  rw [ExceptT.run_bind, StateT.run_bind, h]
  rfl

/-- Two computations, one after another, and what is made of their numbers. -/
theorem computes_op (o : Op) (hx : Computes x left) (hy : Computes y right) :
    Computes (x >>= fun a => y >>= fun b => arithmetic.apply o a b)
      (Joined (Applies o) left right) := by
  constructor
  · intro memory
    obtain ⟨result, between, hleft⟩ := hx.ends memory
    cases result with
    | none => exact ⟨none, between, .left hleft⟩
    | some a =>
      obtain ⟨result, memory', hright⟩ := hy.ends between
      cases result with
      | none => exact ⟨none, memory', .right hleft hright⟩
      | some b =>
        obtain ⟨result, hmakes⟩ := exists_applies o a b
        exact ⟨result, memory', .both hleft hright hmakes⟩
  · rintro memory result memory' (hleft | ⟨hleft, hright⟩ | ⟨hleft, hright, hmakes⟩)
    · exact run_bind_of_none (hx.run _ _ _ hleft)
    · rw [run_bind_of_some (hx.run _ _ _ hleft)]
      exact run_bind_of_none (hy.run _ _ _ hright)
    · rw [run_bind_of_some (hx.run _ _ _ hleft), run_bind_of_some (hy.run _ _ _ hright)]
      exact run_apply hmakes memory'

/-! ### The machine -/

variable {lookup : α → ExceptT Failure (StateM σ) Int} {finds : α → Outcomes σ}

/-- The value of a phrase, where the operands are looked up as they are to be. -/
theorem computes_eval {rank : Rank} {e : Phrase α rank}
    (h : ∀ a, .operand a ∈ e.symbols → Computes (lookup a) (finds a)) :
    Computes (e.eval arithmetic lookup) (Yields finds e) := by
  induction e with
  | operand a => exact h a (List.mem_singleton_self _)
  | group e ih => exact ih fun a ha => h a (by simp [Phrase.symbols, ha])
  | factor f ih => exact ih h
  | multiply t divides f iht ihf =>
    exact computes_op _ (iht fun a ha => h a (by simp [Phrase.symbols, ha]))
      (ihf fun a ha => h a (by simp [Phrase.symbols, ha]))
  | product t ih => exact ih h
  | sum e subtracts t ihe iht =>
    exact computes_op _ (ihe fun a ha => h a (by simp [Phrase.symbols, ha]))
      (iht fun a ha => h a (by simp [Phrase.symbols, ha]))

/-- The machine finds the value of a phrase and no fault with its symbols. -/
theorem value_symbols {m : Type → Type} [Monad m] [LawfulMonad m]
    (operand : α → ExceptT Failure m Int) (e : Phrase α .sum) :
    value operand e.symbols = e.eval arithmetic operand := by
  rw [value, Phrase.run_value_symbols, bind_map_left]
  exact bind_pure _

/-- The machine finds what a phrase may come to, where `name` tells how the operands are written. -/
theorem computes_value {β : Type} {name : α → β} {lookup : β → ExceptT Failure (StateM σ) Int}
    {e : Phrase α .sum}
    (h : ∀ a, .operand a ∈ e.symbols → Computes (lookup (name a)) (finds a)) :
    Computes (value lookup (e.map name).symbols) (Yields finds e) := by
  rw [value_symbols, Phrase.eval_map]
  exact computes_eval h

end Worksheet.Expr.Integer
