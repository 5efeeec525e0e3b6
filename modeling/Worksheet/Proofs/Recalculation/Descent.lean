import Worksheet.Proofs.Recalculation.Search

/-!
# The search by recursion

The search keeps a path to the present name, and for each name of the path what is still to be looked
at. Written as a recursion it keeps the names of the path only, because what is still to be looked at
waits in the calls that have not returned.

* `Descends`: what the recursion returns. Like the search it may go on for ever, and then it returns
  nothing.
* `Resumes`: what the recursion returns that stands where the search stands.
* `search_iff_descends`: the recursion returns what the search comes to.
* `exists_descends`: if the starts lead to finitely many names, then the recursion returns, and the
  walk finds what it returns.
-/

namespace Worksheet.Recalculation

variable {α : Type}

/-- The recursion, from the names of the path, the finished names and a row of names to visit, to what
it returns. -/
inductive Descends (f : α → List α) :
    List α → List α → List α → Except α (List α) → Prop
  /-- No name is left to visit. -/
  | done {path finished} : Descends f path finished [] (.ok finished)
  /-- The next name lies on the path, and closes a cycle. -/
  | cycle {path finished next rest} : next ∈ path →
    Descends f path finished (next :: rest) (.error next)
  /-- The next name is finished, and is passed over. -/
  | skip {path finished next rest result} : next ∉ path → next ∈ finished →
    Descends f path finished rest result → Descends f path finished (next :: rest) result
  /-- The next name is new. When its dependents have been visited it is put in front of the finished
  names. -/
  | visit {path finished next rest out result} : next ∉ path → next ∉ finished →
    Descends f (next :: path) finished (f next) (.ok out) →
    Descends f path (next :: out) rest result → Descends f path finished (next :: rest) result
  /-- The next name is new, and a cycle is found among its dependents. -/
  | fail {path finished next rest c} : next ∉ path → next ∉ finished →
    Descends f (next :: path) finished (f next) (.error c) →
    Descends f path finished (next :: rest) (.error c)

/-- The recursion where the search stands: for each name of the path, the last one first, what is left
of its dependents is visited and the name is finished, and then the starts are visited. -/
inductive Resumes (f : α → List α) (starts : List α) :
    List (α × List α) → List α → Except α (List α) → Prop
  | starts {finished result} : Descends f [] finished starts result →
    Resumes f starts [] finished result
  | finish {name pending path finished out result} :
    Descends f (name :: path.map Prod.fst) finished pending (.ok out) →
    Resumes f starts path (name :: out) result →
    Resumes f starts ((name, pending) :: path) finished result
  | fail {name pending path finished c} :
    Descends f (name :: path.map Prod.fst) finished pending (.error c) →
    Resumes f starts ((name, pending) :: path) finished (.error c)

variable {f : α → List α} {starts : List α}

/-! ### From the search to the recursion

By induction on the search: if the recursion returns from where the search stands next, then it does
from where the search stands now. There is one lemma for each step of the search.
-/

namespace Resumes

variable {name next : α} {rest finished : List α} {path : List (α × List α)}
  {result : Except α (List α)}

/-- With an empty path only the starts are left to visit. -/
theorem descends (h : Resumes f starts [] finished result) :
    Descends f [] finished starts result := by
  cases h with
  | starts h => exact h

theorem skip (hpath : next ∉ name :: path.map Prod.fst) (hnext : next ∈ finished)
    (h : Resumes f starts ((name, rest) :: path) finished result) :
    Resumes f starts ((name, next :: rest) :: path) finished result := by
  cases h with
  | finish hrest hpending => exact .finish (.skip hpath hnext hrest) hpending
  | fail hrest => exact .fail (.skip hpath hnext hrest)

/-- A new name is visited before the others. -/
theorem visit (hpath : next ∉ name :: path.map Prod.fst) (hnext : next ∉ finished)
    (h : Resumes f starts ((next, f next) :: (name, rest) :: path) finished result) :
    Resumes f starts ((name, next :: rest) :: path) finished result := by
  cases h with
  | finish hvisit h =>
    cases h with
    | finish hrest hpending => exact .finish (.visit hpath hnext hvisit hrest) hpending
    | fail hrest => exact .fail (.visit hpath hnext hvisit hrest)
  | fail hvisit => exact .fail (.fail hpath hnext hvisit)

theorem start {start : α} (hstart : start ∉ finished)
    (h : Resumes f starts [(start, f start)] finished result) :
    Descends f [] finished (start :: starts) result := by
  cases h with
  | finish hvisit hstarts => exact .visit List.not_mem_nil hstart hvisit hstarts.descends
  | fail hvisit => exact .fail List.not_mem_nil hstart hvisit

end Resumes

/-- Wherever the search stands, the recursion returns what the search comes to. -/
theorem resumes_of_search {path : List (α × List α)} {finished : List α}
    {result : Except α (List α)} (h : Search f starts path finished result) :
    Resumes f starts path finished result := by
  induction h with
  | done => exact .starts .done
  | pass hstart _ ih => exact .starts (.skip List.not_mem_nil hstart ih.descends)
  | start hstart _ ih => exact .starts (ih.start hstart)
  | finish _ ih => exact .finish .done ih
  | cycle hpath => exact .fail (.cycle (List.mem_cons.mpr hpath))
  | skip hpath hnext _ ih => exact ih.skip (List.mem_cons.not.mpr hpath) hnext
  | enter hpath hnext _ ih => exact ih.visit (List.mem_cons.not.mpr hpath) hnext

/-! ### From the recursion to the search

By induction on the recursion, with what the search does afterwards as a parameter: a call that
returns hands the search back its finished names.
-/

/-- The search visits a row like the recursion and then goes on with the finished names. If the
recursion reports a name, then the search comes to it at once, whatever is left. -/
theorem search_of_descends {names finished row : List α} {result : Except α (List α)}
    (h : Descends f names finished row result) {name : α} {path : List (α × List α)}
    (hnames : names = name :: path.map Prod.fst) {final : Except α (List α)}
    (hok : ∀ out, result = .ok out → Search f starts path (name :: out) final)
    (herror : ∀ c, result = .error c → final = .error c) :
    Search f starts ((name, row) :: path) finished final := by
  induction h generalizing name path final with
  | done => exact .finish (hok _ rfl)
  | cycle hpath =>
    rw [herror _ rfl]
    exact .cycle (List.mem_cons.mp (hnames ▸ hpath))
  | skip hpath hnext _ ih =>
    exact .skip (List.mem_cons.not.mp (hnames ▸ hpath)) hnext (ih hnames hok herror)
  | visit hpath hnext _ _ ihvisit ihrest =>
    apply Search.enter (List.mem_cons.not.mp (hnames ▸ hpath)) hnext
    apply ihvisit (by rw [hnames]; rfl)
    · rintro out ⟨⟩
      exact ihrest hnames hok herror
    · rintro c ⟨⟩
  | fail hpath hnext _ ih =>
    apply Search.enter (List.mem_cons.not.mp (hnames ▸ hpath)) hnext
    apply ih (by rw [hnames]; rfl)
    · rintro out ⟨⟩
    · exact herror

/-- The calls that visit the starts have no path. -/
theorem search_of_descends_nil {names finished row : List α} {result : Except α (List α)}
    (h : Descends f names finished row result) (hnames : names = []) :
    Search f row [] finished result := by
  induction h with
  | done => exact .done
  | cycle hpath => cases hnames ▸ hpath
  | skip _ hnext _ ih => exact .pass hnext (ih hnames)
  | visit _ hnext hvisit _ _ ihrest =>
    apply Search.start hnext
    apply search_of_descends hvisit (by rw [hnames]; rfl)
    · rintro out ⟨⟩
      exact ihrest hnames
    · rintro c ⟨⟩
  | fail _ hnext hvisit _ =>
    apply Search.start hnext
    apply search_of_descends hvisit (by rw [hnames]; rfl)
    · rintro out ⟨⟩
    · rintro c ⟨⟩
      rfl

/-- The recursion returns what the search comes to: the same order, or the same name at which a cycle
closes. So both end, or neither does. -/
theorem search_iff_descends {result : Except α (List α)} :
    Search f starts [] [] result ↔ Descends f [] [] starts result := by
  constructor
  · intro h
    exact (resumes_of_search h).descends
  · intro h
    exact search_of_descends_nil h rfl

/-! ### Finitely many names

The recursion is given by rules, and nothing says beforehand that it returns. That it does follows
from the search, and that from the walk.
-/

variable [DecidableEq α]

/-- If the starts lead to finitely many names, then the recursion returns one result. The walk finds it
within any list that has those names, be it an order or the name at which a cycle closes. -/
theorem exists_descends (f : α → List α) (starts : List α) (hfinite : (Reached f starts).Finite) :
    ∃ result, (∀ result', Descends f [] [] starts result' ↔ result' = result)
      ∧ ∀ names : List α, Reached f starts ⊆ {a | a ∈ names} → order names f starts = result := by
  obtain ⟨names, hnames⟩ : ∃ names : List α, Reached f starts ⊆ {a | a ∈ names} :=
    ⟨hfinite.toFinset.toList, fun a ha => Finset.mem_toList.mpr (hfinite.mem_toFinset.mpr ha)⟩
  have hsearch := search_order hnames
  refine ⟨order names f starts, ?_, ?_⟩
  · intro result'
    rw [← search_iff_descends]
    refine ⟨fun h => h.unique hsearch, ?_⟩
    rintro rfl
    exact hsearch
  · intro names' hnames'
    exact (search_order hnames').unique hsearch

/-- Each number from 4 on leads to the next, but 0 does not lead to them. It leads through 1 and 3 to 2,
and from there back to 1. -/
def detour : Nat → List Nat
  | 0 => [1, 2]
  | 1 => [3]
  | 2 => [1]
  | 3 => [2, 0]
  | n + 4 => [n + 5]

/-- The recursion and the walk both come upon 1, when it lies on the path. -/
theorem exists_descends_cycle :
    (Reached detour [0]).Finite ∧ Descends detour [] [] [0] (.error 1)
      ∧ order [0, 1, 2, 3] detour [0] = .error 1 := by
  have hreached : Reached detour [0] ⊆ {n | n ∈ [0, 1, 2, 3]} := by
    rintro b ⟨a, ha, hab⟩
    induction hab with
    | refl => simp_all
    | @tail b c _ hbc ih =>
      simp only [Set.mem_ofPred_eq, List.mem_cons, List.not_mem_nil, or_false] at ih ⊢
      rcases ih with rfl | rfl | rfl | rfl <;> simp [Leads, detour] at hbc <;> omega
  have hfinite := (List.finite_toSet [0, 1, 2, 3]).subset hreached
  have horder : order [0, 1, 2, 3] detour [0] = .error 1 := by cbv
  obtain ⟨result, hresult, hwalk⟩ := exists_descends detour [0] hfinite
  have hcycle : .error 1 = result := horder.symm.trans (hwalk _ hreached)
  exact ⟨hfinite, (hresult _).mpr hcycle, horder⟩

end Worksheet.Recalculation
