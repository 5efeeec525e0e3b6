import Worksheet.Expr.Phrase
import Worksheet.Proofs.Result

/-!
# Phrases translated

A phrase keeps its shape when its operands are changed, and its value changes as its operands and
quotients do: where one kind of computation is translated into another, it makes no difference
whether the operands are translated or the value.

* `eval_translate`: translation of operands is translation of the value.
* `lookup_of_eval_ok`, `stops_of_eval_error`: a phrase has a value only if all its operands have
  one, and if it has none then an operand or an operation has none.
-/

namespace Worksheet.Expr.Phrase

variable {m m' : Type → Type} [Monad m] [Monad m'] {N α β : Type}

/-- Changes the operands. -/
def map (g : α → β) : {rank : Rank} → Phrase α rank → Phrase β rank
  | _, operand a => operand (g a)
  | _, group e => group (e.map g)
  | _, factor f => factor (f.map g)
  | _, multiply t divides f => multiply (t.map g) divides (f.map g)
  | _, product t => product (t.map g)
  | _, sum e subtracts t => sum (e.map g) subtracts (t.map g)

/-- A phrase is written as before, with its operands changed. -/
theorem symbols_map (g : α → β) {rank : Rank} (e : Phrase α rank) :
    (e.map g).symbols = e.symbols.map (Symbol.map g) := by
  induction e with
  | operand a => rfl
  | group e ih => simp [map, symbols, ih, Symbol.map]
  | factor f ih => exact ih
  | multiply t divides f iht ihf => simp [map, symbols, iht, ihf, Symbol.map]
  | product t ih => exact ih
  | sum e subtracts t ihe iht => simp [map, symbols, ihe, iht, Symbol.map]

/-- To change the operands is to look them up in another way. -/
theorem eval_map (A : Arithmetic m N) (lookup : β → m N) (g : α → β) {rank : Rank}
    (e : Phrase α rank) : (e.map g).eval A lookup = e.eval A fun a => lookup (g a) := by
  induction e with
  | operand a => rfl
  | group e ih => exact ih
  | factor f ih => exact ih
  | multiply t divides f iht ihf => simp only [map, eval, iht, ihf]
  | product t ih => exact ih
  | sum e subtracts t ihe iht => simp only [map, eval, ihe, iht]

/-- To evaluate and then to translate the computation is to evaluate with what operands and
quotients are translated to. -/
theorem eval_translate {A : Arithmetic m N} {A' : Arithmetic m' N} {lookup : α → m N}
    {lookup' : α → m' N} {translate : m N → m' N}
    (hbind : ∀ (x : m N) (k : N → m N),
      translate (x >>= k) = translate x >>= fun a => translate (k a))
    (happly : ∀ o a b, translate (A.apply o a b) = A'.apply o a b)
    (hlookup : ∀ a, translate (lookup a) = lookup' a) {rank : Rank} (e : Phrase α rank) :
    translate (e.eval A lookup) = e.eval A' lookup' := by
  induction e with
  | operand a => exact hlookup a
  | group e ih => exact ih
  | factor f ih => exact ih
  | multiply t divides f iht ihf => simp only [eval, hbind, iht, ihf, happly]
  | product t ih => exact ih
  | sum e subtracts t ihe iht => simp only [eval, hbind, ihe, iht, happly]

/-! ### Operands without a value

Evaluation is strict: nothing is skipped, so that the value of a phrase tells of all its operands.
-/

section Strict

variable {ε : Type} {A : Arithmetic (ExceptT ε Id) N} {lookup : α → ExceptT ε Id N}

/-- An operation with a value has both its operands. -/
theorem operands_eq_ok {x y : ExceptT ε Id N} {o : Op} {value : N}
    (h : Id.run (x >>= fun a => y >>= fun b => A.apply o a b).run = .ok value) :
    (∃ a, Id.run x.run = .ok a) ∧ ∃ b, Id.run y.run = .ok b := by
  obtain ⟨a, ha, hrest⟩ := run_bind_eq_ok.mp h
  obtain ⟨b, hb, -⟩ := run_bind_eq_ok.mp hrest
  exact ⟨⟨a, ha⟩, b, hb⟩

/-- An operation without one has stopped at its left operand, at its right one, or by itself. -/
theorem operands_eq_error {x y : ExceptT ε Id N} {o : Op} {reason : ε}
    (h : Id.run (x >>= fun a => y >>= fun b => A.apply o a b).run = .error reason) :
    Id.run x.run = .error reason ∨ Id.run y.run = .error reason
      ∨ ∃ a b, Id.run (A.apply o a b).run = .error reason := by
  rcases run_bind_eq_error.mp h with hx | ⟨a, -, hrest⟩
  · exact .inl hx
  · rcases run_bind_eq_error.mp hrest with hy | ⟨b, -, happly⟩
    · exact .inr (.inl hy)
    · exact .inr (.inr ⟨a, b, happly⟩)

/-- No operand of a phrase with a value is without one. -/
theorem lookup_of_eval_ok {rank : Rank} {e : Phrase α rank} {value : N}
    (h : Id.run (e.eval A lookup).run = .ok value) {a : α} (ha : .operand a ∈ e.symbols) :
    ∃ x, Id.run (lookup a).run = .ok x := by
  induction e generalizing value with
  | operand b =>
    cases List.mem_singleton.mp ha
    exact ⟨value, h⟩
  | group e ih =>
    have ha : .operand a ∈ e.symbols := by simpa [symbols] using ha
    exact ih h ha
  | factor f ih => exact ih h ha
  | multiply t divides f iht ihf =>
    obtain ⟨⟨left, hleft⟩, right, hright⟩ := operands_eq_ok h
    have ha : .operand a ∈ t.symbols ∨ .operand a ∈ f.symbols := by simpa [symbols] using ha
    exact ha.elim (iht hleft) (ihf hright)
  | product t ih => exact ih h ha
  | sum e subtracts t ihe iht =>
    obtain ⟨⟨left, hleft⟩, right, hright⟩ := operands_eq_ok h
    have ha : .operand a ∈ e.symbols ∨ .operand a ∈ t.symbols := by simpa [symbols] using ha
    exact ha.elim (ihe hleft) (iht hright)

/-- An operand of the phrase, or an operation, that is stopped for the given reason. -/
def Stops (A : Arithmetic (ExceptT ε Id) N) (lookup : α → ExceptT ε Id N) {rank : Rank}
    (e : Phrase α rank) (reason : ε) : Prop :=
  (∃ a, .operand a ∈ e.symbols ∧ Id.run (lookup a).run = .error reason)
    ∨ ∃ o left right, Id.run (A.apply o left right).run = .error reason

/-- What stops a part stops the whole. -/
theorem Stops.mono {rank rank' : Rank} {e : Phrase α rank} {e' : Phrase α rank'} {reason : ε}
    (h : Stops A lookup e reason) (hsub : e.symbols ⊆ e'.symbols) : Stops A lookup e' reason :=
  h.imp_left fun ⟨a, ha, hreason⟩ => ⟨a, hsub ha, hreason⟩

/-- What stops the evaluation of a phrase stops an operand or an operation. -/
theorem stops_of_eval_error {rank : Rank} {e : Phrase α rank} {reason : ε}
    (h : Id.run (e.eval A lookup).run = .error reason) : Stops A lookup e reason := by
  induction e with
  | operand a => exact .inl ⟨a, List.mem_singleton_self _, h⟩
  | group e ih => exact (ih h).mono (by simp [symbols])
  | factor f ih => exact ih h
  | multiply t divides f iht ihf =>
    rcases operands_eq_error h with hleft | hright | ⟨left, right, happly⟩
    · exact (iht hleft).mono (by simp [symbols])
    · exact (ihf hright).mono (by simp [symbols])
    · exact .inr ⟨_, left, right, happly⟩
  | product t ih => exact ih h
  | sum e subtracts t ihe iht =>
    rcases operands_eq_error h with hleft | hright | ⟨left, right, happly⟩
    · exact (ihe hleft).mono (by simp [symbols])
    · exact (iht hright).mono (by simp [symbols])
    · exact .inr ⟨_, left, right, happly⟩

end Strict

end Worksheet.Expr.Phrase
