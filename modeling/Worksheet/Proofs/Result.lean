import Mathlib

/-!
# Computations that may fail

When a computation in steps has a result, so has each of its steps; when it fails, one of them does.

* `adapt_bind`: to translate the failures of a computation is to translate those of its steps.
* `EqualUpTo`: two computations that have the same result, or fail in ways that are related.
-/

namespace Worksheet

variable {ε α β γ : Type}

/-- Two steps have a result only if both have one. -/
theorem bind_eq_ok {x : Except ε α} {f : α → Except ε β} {b : β} :
    (x >>= f) = .ok b ↔ ∃ a, x = .ok a ∧ f a = .ok b := by
  cases x with
  | ok a =>
    constructor
    · intro h
      exact ⟨a, rfl, h⟩
    · rintro ⟨a', ha, h⟩
      cases ha
      exact h
  | error e =>
    constructor
    · intro h
      cases h
    · rintro ⟨a', ha, -⟩
      cases ha

/-- Two steps fail at the first or, if it has a result, at the second. -/
theorem bind_eq_error {x : Except ε α} {f : α → Except ε β} {e : ε} :
    (x >>= f) = .error e ↔ x = .error e ∨ ∃ a, x = .ok a ∧ f a = .error e := by
  cases x with
  | ok a =>
    constructor
    · intro h
      exact .inr ⟨a, rfl, h⟩
    · rintro (h | ⟨a', ha, h⟩)
      · cases h
      · cases ha
        exact h
  | error e' =>
    constructor
    · intro h
      cases h
      exact .inl rfl
    · rintro (h | ⟨a', ha, -⟩)
      · cases h
        rfl
      · cases ha

/-- What is made of a result is made of one that is there. -/
theorem map_eq_ok {x : Except ε α} {f : α → β} {b : β} :
    x.map f = .ok b ↔ ∃ a, x = .ok a ∧ f a = b := by
  cases x with
  | ok a => simp [Except.map]
  | error e => simp [Except.map]

/-- When steps over a row fail, then at one of its items. -/
theorem exists_of_mapM_eq_error {f : α → Except ε β} {xs : List α} {e : ε}
    (h : xs.mapM f = .error e) : ∃ x ∈ xs, f x = .error e := by
  induction xs with
  | nil => cases h
  | cons x xs ih =>
    rw [List.mapM_cons, bind_eq_error] at h
    rcases h with h | ⟨b, -, h⟩
    · exact ⟨x, List.mem_cons_self, h⟩
    · rcases bind_eq_error.mp h with h | ⟨bs, -, h⟩
      · obtain ⟨y, hy, herror⟩ := ih h
        exact ⟨y, List.mem_cons_of_mem _ hy, herror⟩
      · cases h

/-- The same, where failures are added to a computation that has none. -/
theorem run_bind_eq_ok {x : ExceptT ε Id α} {k : α → ExceptT ε Id β} {b : β} :
    Id.run (x >>= k).run = .ok b ↔ ∃ a, Id.run x.run = .ok a ∧ Id.run (k a).run = .ok b := by
  rw [ExceptT.run_bind, Id.run_bind]
  cases Id.run x.run with
  | ok a => simp
  | error e => simp

theorem run_bind_eq_error {x : ExceptT ε Id α} {k : α → ExceptT ε Id β} {e : ε} :
    Id.run (x >>= k).run = .error e
      ↔ Id.run x.run = .error e ∨ ∃ a, Id.run x.run = .ok a ∧ Id.run (k a).run = .error e := by
  rw [ExceptT.run_bind, Id.run_bind]
  cases Id.run x.run with
  | ok a => simp
  | error e' => simp

/-! ### Translated failures

Failures of one kind may be read as failures of another. This changes nothing else about a
computation, so it may be done step by step or once for the whole.
-/

section Adapt

variable {ε' : Type} {m : Type → Type} [Monad m] [LawfulMonad m] (g : ε → ε')

theorem adapt_pure (a : α) : (pure a : ExceptT ε m α).adapt g = pure a := by
  apply ExceptT.ext
  rw [ExceptT.run_adapt, ExceptT.run_pure, map_pure, ExceptT.run_pure]
  rfl

theorem adapt_throw (e : ε) : (throw e : ExceptT ε m α).adapt g = throw (g e) := by
  apply ExceptT.ext
  rw [ExceptT.run_adapt, ExceptT.run_throw, map_pure, ExceptT.run_throw]
  rfl

/-- A computation of the underlying monad has no failures to translate. -/
theorem adapt_lift (x : m α) : (liftM x : ExceptT ε m α).adapt g = liftM x := by
  apply ExceptT.ext
  show Except.mapError g <$> (Except.ok <$> x) = Except.ok <$> x
  rw [Functor.map_map]
  rfl

/-- The failures of two steps are translated step by step. -/
theorem adapt_bind (x : ExceptT ε m α) (k : α → ExceptT ε m β) :
    (x >>= k).adapt g = x.adapt g >>= fun a => (k a).adapt g := by
  apply ExceptT.ext
  simp only [ExceptT.run_adapt, ExceptT.run_bind, map_bind, bind_map_left]
  apply bind_congr
  intro result
  cases result with
  | ok a => rfl
  | error e =>
    rw [map_pure]
    rfl

end Adapt

/-! ### Related failures -/

/-- Two computations that have the same result, or fail in related ways. -/
inductive EqualUpTo (R : ε → ε → Prop) : Except ε α → Except ε α → Prop
  | ok (a : α) : EqualUpTo R (.ok a) (.ok a)
  | error {e e' : ε} : R e e' → EqualUpTo R (.error e) (.error e')

namespace EqualUpTo

variable {R : ε → ε → Prop} {x y : Except ε α}

/-- A computation is related to itself if each failure is. -/
theorem refl (hR : ∀ e, R e e) (x : Except ε α) : EqualUpTo R x x := by
  cases x with
  | ok a => exact .ok a
  | error e => exact .error (hR e)

theorem bind (h : EqualUpTo R x y) {f g : α → Except ε β} (hf : ∀ a, EqualUpTo R (f a) (g a)) :
    EqualUpTo R (x >>= f) (y >>= g) := by
  cases h with
  | ok a => exact hf a
  | error he => exact .error he

/-- What is made of related results is related. -/
theorem map (h : EqualUpTo R x y) (f : α → β) : EqualUpTo R (x.map f) (y.map f) := by
  cases h with
  | ok a => exact .ok (f a)
  | error he => exact .error he

/-- Steps over two rows, item by item. -/
theorem mapM {S : γ → γ → Prop} {f g : γ → Except ε β} {xs ys : List γ}
    (h : List.Forall₂ S xs ys) (hfg : ∀ x y, S x y → EqualUpTo R (f x) (g y)) :
    EqualUpTo R (xs.mapM f) (ys.mapM g) := by
  induction h with
  | nil => exact .ok []
  | cons hxy _ ih =>
    rw [List.mapM_cons, List.mapM_cons]
    exact (hfg _ _ hxy).bind fun b => ih.bind fun bs => .ok (b :: bs)

end EqualUpTo

end Worksheet
