/-!
# The order of recalculation

When some cells change, they and all cells that depend on them are computed again, each after those
it depends on. The order is found by walking along the dependents depth first: the path that leads
to the present cell is kept with the dependents still to be looked at, and a cell whose dependents
are all done is put in front of the finished ones. A dependent that lies on the path closes a cycle,
and the walk ends with it.

The dependents are given as a function; names outside of the list `names` have none. So a walk ends:
`walk` either leaves a name for good or looks at one dependent less.
-/

namespace Worksheet.Recalculation

variable {α : Type} [DecidableEq α]

/-- The dependents of a name, of which only the names of the list have any. -/
def following (names : List α) (dependents : α → List α) (name : α) : List α :=
  if name ∈ names then dependents name else []

/-- How many names are neither on the path nor finished. -/
def unentered (names : List α) (path : List (α × List α)) (finished : List α) : Nat :=
  names.countP (fun n => decide (n ∉ path.map Prod.fst) && decide (n ∉ finished))

/-- What is left to be looked at along the path. -/
def pendingSize (path : List (α × List α)) : Nat :=
  path.foldr (fun step size => 2 * step.2.length + 1 + size) 0

omit [DecidableEq α] in
theorem countP_lt {p q : α → Bool} {l : List α} (hle : ∀ x ∈ l, p x = true → q x = true)
    {a : α} (ha : a ∈ l) (hp : p a = false) (hq : q a = true) : l.countP p < l.countP q := by
  induction l with
  | nil => simp at ha
  | cons x l ih =>
    have hsub : l.countP p ≤ l.countP q :=
      List.countP_mono_left fun y hy => hle y (List.mem_cons_of_mem _ hy)
    rcases List.mem_cons.mp ha with rfl | ha
    · simp only [List.countP_cons, hp, hq]
      simp
      omega
    · have hlt := ih (fun y hy => hle y (List.mem_cons_of_mem _ hy)) ha
      have hx := hle x List.mem_cons_self
      simp only [List.countP_cons]
      by_cases hpx : p x = true
      · simp only [hpx, hx hpx, if_true]
        omega
      · simp only [hpx]
        simp
        omega

/-- Walks on from the present path, its last name first. The result is the finished names, the last
finished first, or the dependent that closes a cycle. -/
def walk (names : List α) (dependents : α → List α) (path : List (α × List α))
    (finished : List α) : Except α (List α) :=
  match path with
  | [] => .ok finished
  | (name, []) :: path => walk names dependents path (name :: finished)
  | (name, next :: rest) :: path =>
    if next = name ∨ next ∈ path.map Prod.fst then .error next
    else if next ∈ finished then walk names dependents ((name, rest) :: path) finished
    else
      walk names dependents
        ((next, following names dependents next) :: (name, rest) :: path) finished
termination_by (unentered names path finished, pendingSize path)
decreasing_by
  · have hsame : unentered names path (name :: finished)
        = unentered names ((name, []) :: path) finished := by
      simp only [unentered]
      apply List.countP_congr
      intro n _
      by_cases hn : n = name <;> simp [hn]
    rw [hsame]
    apply Prod.Lex.right
    simp [pendingSize]
  · apply Prod.Lex.right
    simp [pendingSize]
  · next hpath hfinished =>
    by_cases hmem : next ∈ names
    · apply Prod.Lex.left
      refine countP_lt (fun n _ hn => ?_) hmem ?_ ?_
      · simp only [List.map_cons, List.mem_cons, not_or, Bool.and_eq_true, decide_eq_true_eq]
          at hn ⊢
        exact ⟨hn.1.2, hn.2⟩
      · simp
      · simp only [List.map_cons, List.mem_cons, Bool.and_eq_true, decide_eq_true_eq]
        exact ⟨hpath, hfinished⟩
    · have hsame : unentered names ((next, following names dependents next) :: (name, rest) :: path)
          finished = unentered names ((name, next :: rest) :: path) finished := by
        simp only [unentered]
        apply List.countP_congr
        intro n hn
        have : n ≠ next := fun h => hmem (h ▸ hn)
        simp [this]
      rw [hsame]
      apply Prod.Lex.right
      simp [pendingSize, following, hmem]
      omega

/-- Walks from one name. -/
def visit (names : List α) (dependents : α → List α) (finished : List α) (start : α) :
    Except α (List α) :=
  if start ∈ finished then .ok finished
  else walk names dependents [(start, following names dependents start)] finished

/-- The starting names and everything that depends on them, each name before its dependents, or the
name at which a cycle closes. -/
def order (names : List α) (dependents : α → List α) (starts : List α) : Except α (List α) :=
  starts.foldlM (visit names dependents) []

end Worksheet.Recalculation
