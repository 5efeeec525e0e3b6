import Worksheet.Proofs.Recalculation

/-!
# The search without a bound

The walk along the dependents is given a list of names, outside of which no name has dependents.
Here the same search runs free: nothing bounds it, and on a graph without end it may go on for ever.
As soon as the starts lead to finitely many names it ends, with what the walk finds.

* `Search`: the search, step after step, and what it comes to.
* `Search.unique`: it comes to one thing at most.
* `search_order`: it comes to what the walk finds, if the list has all names that matter.
* `exists_search`: what it comes to whenever the starts lead to finitely many names.
-/

namespace Worksheet.Recalculation

open Relation (ReflTransGen TransGen)

variable {α : Type} {f : α → List α} {names : List α}

/-- What some names lead to, themselves among it. -/
def Reached (f : α → List α) (starts : List α) : Set α :=
  {b | ∃ a ∈ starts, ReflTransGen (Leads f) a b}

/-! ### The search -/

/-- The search for an order, from the starts that are left, the present path and the finished names,
to its result. -/
inductive Search (f : α → List α) :
    List α → List (α × List α) → List α → Except α (List α) → Prop
  /-- All starts are done. -/
  | done {finished} : Search f [] [] finished (.ok finished)
  /-- The next start is finished, and is passed over. -/
  | pass {start starts finished result} : start ∈ finished →
    Search f starts [] finished result → Search f (start :: starts) [] finished result
  /-- A path begins at the next start. -/
  | start {start starts finished result} : start ∉ finished →
    Search f starts [(start, f start)] finished result →
    Search f (start :: starts) [] finished result
  /-- Nothing that depends on the last name of the path is left, and the name is finished. -/
  | finish {starts name path finished result} :
    Search f starts path (name :: finished) result →
    Search f starts ((name, []) :: path) finished result
  /-- The next dependent lies on the path, and closes a cycle. -/
  | cycle {starts name next rest path finished} :
    next = name ∨ next ∈ path.map Prod.fst →
    Search f starts ((name, next :: rest) :: path) finished (.error next)
  /-- The next dependent is finished, and is passed over. -/
  | skip {starts name next rest path finished result} :
    ¬ (next = name ∨ next ∈ path.map Prod.fst) → next ∈ finished →
    Search f starts ((name, rest) :: path) finished result →
    Search f starts ((name, next :: rest) :: path) finished result
  /-- The next dependent is new, and comes onto the path. -/
  | enter {starts name next rest path finished result} :
    ¬ (next = name ∨ next ∈ path.map Prod.fst) → next ∉ finished →
    Search f starts ((next, f next) :: (name, rest) :: path) finished result →
    Search f starts ((name, next :: rest) :: path) finished result

/-- At each moment the search can go on in one way only. -/
theorem Search.unique {starts finished : List α} {path : List (α × List α)}
    {result result' : Except α (List α)} (h : Search f starts path finished result)
    (h' : Search f starts path finished result') : result = result' := by
  induction h with
  | done =>
    cases h'
    rfl
  | pass hstart _ ih =>
    cases h' with
    | pass _ h' => exact ih h'
    | start hstart' _ => exact absurd hstart hstart'
  | start hstart _ ih =>
    cases h' with
    | pass hstart' _ => exact absurd hstart' hstart
    | start _ h' => exact ih h'
  | finish _ ih =>
    cases h' with
    | finish h' => exact ih h'
  | cycle hpath =>
    cases h' with
    | cycle _ => rfl
    | skip hpath' _ _ => exact absurd hpath hpath'
    | enter hpath' _ _ => exact absurd hpath hpath'
  | skip hpath hnext _ ih =>
    cases h' with
    | cycle hpath' => exact absurd hpath' hpath
    | skip _ _ h' => exact ih h'
    | enter _ hnext' _ => exact absurd hnext hnext'
  | enter hpath hnext _ ih =>
    cases h' with
    | cycle hpath' => exact absurd hpath' hpath
    | skip _ hnext' _ => exact absurd hnext' hnext
    | enter _ _ h' => exact ih h'

/-! ### Names that matter

The walk is given a list of names and keeps to it. The search is given none. They agree if the list
holds everything that can be met, which is what `Within` says.
-/

/-- A name leads to no name but those of the list. -/
def Within (f : α → List α) (names : List α) (a : α) : Prop :=
  ∀ b, ReflTransGen (Leads f) a b → b ∈ names

theorem Within.mem {a : α} (h : Within f names a) : a ∈ names := h a .refl

/-- What a name within leads to is within. -/
theorem Within.leads {a b : α} (h : Within f names a) (hab : b ∈ f a) : Within f names b :=
  fun c hbc => h c (hbc.head hab)

/-- Less is left when a dependent has been looked at. -/
theorem within_tail {name next : α} {pending : List α} {path : List (α × List α)}
    (h : ∀ step ∈ (name, next :: pending) :: path, ∀ b ∈ step.2, Within f names b) :
    ∀ step ∈ (name, pending) :: path, ∀ b ∈ step.2, Within f names b := by
  obtain ⟨hfirst, hpath⟩ := List.forall_mem_cons.mp h
  exact List.forall_mem_cons.mpr ⟨(List.forall_mem_cons.mp hfirst).2, hpath⟩

theorem subset_reached (f : α → List α) {starts : List α} {a : α} (ha : a ∈ starts) :
    a ∈ Reached f starts :=
  ⟨a, ha, .refl⟩

/-- A name that the starts lead to leads to no name but those of the list. -/
theorem within_of_mem_reached {starts : List α} (h : Reached f starts ⊆ {a | a ∈ names}) {a : α}
    (ha : a ∈ Reached f starts) : Within f names a := by
  obtain ⟨start, hstart, hreach⟩ := ha
  exact fun b hab => h ⟨start, hstart, hreach.trans hab⟩

variable [DecidableEq α]

/-- Where the list has all names that matter, it hides none of their dependents. -/
theorem Within.following {a : α} (h : Within f names a) : following names f a = f a :=
  if_pos h.mem

/-- Within the list nothing is lost by keeping to it. -/
theorem Within.leads_iff {a b : α} (h : Within f names a) :
    Leads (Recalculation.following names f) a b ↔ Leads f a b :=
  iff_of_eq (congrArg (b ∈ ·) h.following)

theorem leads_of_following {a b : α} (h : Leads (following names f) a b) : Leads f a b := by
  by_cases ha : a ∈ names
  · rwa [Leads, following, if_pos ha] at h
  · rw [Leads, following, if_neg ha] at h
    cases h

/-- The same of what is reached through others. -/
theorem Within.reaches_iff {a b : α} (h : Within f names a) :
    ReflTransGen (Leads (Recalculation.following names f)) a b ↔ ReflTransGen (Leads f) a b := by
  constructor
  · exact ReflTransGen.mono (fun _ _ => leads_of_following) a b
  · intro hab
    induction hab using ReflTransGen.head_induction_on with
    | refl => exact .refl
    | head hac _ ih => exact (ih (h.leads hac)).head (h.leads_iff.mpr hac)

theorem Within.transGen_iff {a b : α} (h : Within f names a) :
    TransGen (Leads (Recalculation.following names f)) a b ↔ TransGen (Leads f) a b := by
  rw [TransGen.head'_iff, TransGen.head'_iff]
  constructor
  · rintro ⟨c, hac, hcb⟩
    have hac := h.leads_iff.mp hac
    exact ⟨c, hac, (h.leads hac).reaches_iff.mp hcb⟩
  · rintro ⟨c, hac, hcb⟩
    exact ⟨c, h.leads_iff.mpr hac, (h.leads hac).reaches_iff.mpr hcb⟩

/-! ### The search ends

The walk is a function, and takes each step that the search can take. So wherever the list holds
enough names, the search ends with what the walk returns.
-/

/-- From a path the search comes to what the walk finds, and from there to what it does with the
starts that are left. -/
theorem search_walk {starts : List α} {path : List (α × List α)} {finished : List α}
    {rest : List α → Except α (List α)}
    (hwithin : ∀ step ∈ path, ∀ b ∈ step.2, Within f names b)
    (hrest : ∀ out, Search f starts [] out (rest out)) :
    Search f starts path finished (walk names f path finished >>= rest) := by
  fun_induction walk names f path finished with
  | case1 finished => exact hrest finished
  | case2 finished name path ih =>
    exact .finish (ih fun step hstep => hwithin step (List.mem_cons_of_mem _ hstep))
  | case3 finished name next pending path hpath => exact .cycle hpath
  | case4 finished name next pending path hpath hnext ih =>
    refine .skip hpath hnext (ih ?_)
    exact within_tail hwithin
  | case5 finished name next pending path hpath hnext ih =>
    have hwithin' := hwithin _ List.mem_cons_self next List.mem_cons_self
    rw [hwithin'.following] at ih ⊢
    refine .enter hpath hnext (ih ?_)
    exact List.forall_mem_cons.mpr ⟨fun _ => hwithin'.leads, within_tail hwithin⟩

/-- From the starts the search comes to what their visits find. -/
theorem search_foldlM {starts finished : List α} (hwithin : ∀ a ∈ starts, Within f names a) :
    Search f starts [] finished (starts.foldlM (visit names f) finished) := by
  induction starts generalizing finished with
  | nil => exact .done
  | cons start starts ih =>
    have hrest : ∀ out, Search f starts [] out (starts.foldlM (visit names f) out) := fun _ =>
      ih fun a ha => hwithin a (List.mem_cons_of_mem _ ha)
    have hstart := hwithin start List.mem_cons_self
    rw [List.foldlM_cons, visit]
    split
    · next hmem => exact .pass hmem (hrest finished)
    · next hmem =>
      rw [hstart.following]
      refine .start hmem (search_walk ?_ hrest)
      exact List.forall_mem_singleton.mpr fun _ => hstart.leads

/-- The search comes to what the walk finds within all names that matter. -/
theorem search_order {starts : List α} (h : Reached f starts ⊆ {a | a ∈ names}) :
    Search f starts [] [] (order names f starts) :=
  search_foldlM fun _ ha => within_of_mem_reached h (subset_reached f ha)

/-! ### What it comes to -/

section Order

variable {starts : List α}

/-- The starts reach the same names within the list. -/
theorem reached_following (h : Reached f starts ⊆ {a | a ∈ names}) :
    Reached (following names f) starts = Reached f starts := by
  ext b
  refine exists_congr fun a => and_congr_right fun ha => ?_
  exact (within_of_mem_reached h (subset_reached f ha)).reaches_iff

/-- An order has each name that the starts lead to once, and before all that depend on it. -/
theorem order_ok_of_reached (h : Reached f starts ⊆ {a | a ∈ names}) {out : List α}
    (horder : order names f starts = .ok out) :
    Settled f out ∧ ∀ b, b ∈ out ↔ b ∈ Reached f starts := by
  obtain ⟨hsettled, hmem⟩ := order_ok horder
  have hreached : ∀ b, b ∈ out ↔ b ∈ Reached f starts := by
    intro b
    rw [← reached_following h]
    exact hmem b
  refine ⟨hsettled.congr ?_, hreached⟩
  intro a ha
  exact (within_of_mem_reached h ((hreached a).mp ha)).following

/-- A name that is reported lies on a cycle, to which the starts lead. -/
theorem order_error_of_reached (h : Reached f starts ⊆ {a | a ∈ names}) {c : α}
    (horder : order names f starts = .error c) :
    c ∈ Reached f starts ∧ TransGen (Leads f) c c := by
  obtain ⟨hcycle, hreached⟩ := order_error horder
  replace hreached : c ∈ Reached f starts := reached_following h ▸ hreached
  exact ⟨hreached, (within_of_mem_reached h hreached).transGen_iff.mp hcycle⟩

/-- A name is reported just when the starts lead to a cycle. -/
theorem order_error_iff (h : Reached f starts ⊆ {a | a ∈ names}) :
    (∃ c, order names f starts = .error c)
      ↔ ∃ c ∈ Reached f starts, TransGen (Leads f) c c := by
  constructor
  · rintro ⟨c, horder⟩
    exact ⟨c, order_error_of_reached h horder⟩
  · rintro ⟨c, hc, hcycle⟩
    cases horder : order names f starts with
    | error c' => exact ⟨c', rfl⟩
    | ok out =>
      obtain ⟨hsettled, hmem⟩ := order_ok_of_reached h horder
      exact absurd hcycle (hsettled.not_transGen_self ((hmem c).mpr hc))

/-- If the starts lead to finitely many names, then the search comes to one result, which is what
the walk finds within any list that has those names. It is a name that lies on a cycle, if the starts
lead to a cycle. Otherwise it is a list of all that the starts lead to, each name once and before
those that depend on it. -/
theorem exists_search (f : α → List α) (starts : List α) (hfinite : (Reached f starts).Finite) :
    ∃ result, (∀ result', Search f starts [] [] result' ↔ result' = result)
      ∧ (∀ names : List α, Reached f starts ⊆ {a | a ∈ names} → order names f starts = result)
      ∧ ((∃ c, result = .error c) ↔ ∃ c ∈ Reached f starts, TransGen (Leads f) c c)
      ∧ (∀ c, result = .error c → c ∈ Reached f starts ∧ TransGen (Leads f) c c)
      ∧ ∀ out, result = .ok out →
          out.Nodup ∧ (∀ b, b ∈ out ↔ b ∈ Reached f starts)
            ∧ ∀ l₁ a l₂, out = l₁ ++ a :: l₂ → ∀ b ∈ f a, b ∈ l₂ := by
  obtain ⟨names, hnames⟩ : ∃ names : List α, Reached f starts ⊆ {a | a ∈ names} :=
    ⟨hfinite.toFinset.toList, fun a ha => Finset.mem_toList.mpr (hfinite.mem_toFinset.mpr ha)⟩
  have hsearch := search_order hnames
  refine ⟨order names f starts, ?_, ?_, order_error_iff hnames,
    fun c => order_error_of_reached hnames, ?_⟩
  · intro result'
    refine ⟨fun h => h.unique hsearch, ?_⟩
    rintro rfl
    exact hsearch
  · intro names' hnames'
    exact (search_order hnames').unique hsearch
  · intro out hout
    obtain ⟨hsettled, hmem⟩ := order_ok_of_reached hnames hout
    refine ⟨hsettled.nodup, hmem, ?_⟩
    rintro l₁ a l₂ rfl b hb
    exact hsettled.mem_of_split hb

end Order

/-- A graph without end, of which the starts lead to a few names. -/
theorem exists_search_quotients :
    (Reached (fun n : Nat => if n = 0 then [] else [n / 2, n / 3]) [3, 6, 3]).Finite
      ∧ Search (fun n : Nat => if n = 0 then [] else [n / 2, n / 3]) [3, 6, 3] [] []
          (.ok [6, 2, 3, 1, 0]) := by
  have hreached : Reached (fun n : Nat => if n = 0 then [] else [n / 2, n / 3]) [3, 6, 3]
      ⊆ {n | n ∈ List.range 7} := by
    rintro b ⟨a, ha, hab⟩
    have hle : b ≤ a := by
      induction hab with
      | refl => exact le_rfl
      | @tail b c _ hbc ih =>
        by_cases hb : b = 0
        · simp [Leads, hb] at hbc
        · simp [Leads, hb] at hbc
          omega
    simp at ha ⊢
    omega
  have hfinite := (List.finite_toSet (List.range 7)).subset hreached
  obtain ⟨result, hsearch, horder, -⟩ := exists_search _ _ hfinite
  refine ⟨hfinite, (hsearch _).mpr ?_⟩
  rw [← horder (List.range 7) hreached]
  cbv

end Worksheet.Recalculation
