import Worksheet.Proofs.Result
import Worksheet.Recalculation

/-!
# Laws of the order of recalculation

What the walk along the dependents finds, in terms of the relation `Leads` from a name to those that
depend on it.

* `order_ok`: the order holds exactly what the starts lead to, and each name stands before all that
  it leads to.
* `order_error`: a name that is reported lies on a cycle that a start leads to.
* `order_congr`: only the names with dependents matter of the list of names.
-/

namespace Worksheet.Recalculation

open Relation (ReflTransGen TransGen)

variable {α : Type} {f : α → List α}

/-- From a name to one that depends on it. -/
def Leads (f : α → List α) (a b : α) : Prop := b ∈ f a

/-! ### Settled lists

In a settled list everything that a name leads to stands behind it. Such lists hold no cycles, and
what follows about orders of recalculation is read off this one property.
-/

/-- A list without repetitions in which everything that a name leads to stands behind it. -/
inductive Settled (f : α → List α) : List α → Prop
  | nil : Settled f []
  | cons {a l} : a ∉ l → (∀ b ∈ f a, b ∈ l) → Settled f l → Settled f (a :: l)

namespace Settled

/-- No name stands twice in a settled list. -/
theorem nodup {l : List α} (h : Settled f l) : l.Nodup := by
  induction h with
  | nil => exact List.nodup_nil
  | cons ha _ _ ih => exact List.nodup_cons.mpr ⟨ha, ih⟩

theorem tail {a : α} {l : List α} (h : Settled f (a :: l)) : Settled f l := by
  cases h with
  | cons _ _ hl => exact hl

/-- A settled list is closed under the dependents of its names. -/
theorem mem_of_leads {l : List α} (h : Settled f l) {a b : α} (ha : a ∈ l) (hab : b ∈ f a) :
    b ∈ l := by
  induction h with
  | nil => cases ha
  | cons _ hf _ ih =>
    rcases List.mem_cons.mp ha with rfl | ha
    · exact List.mem_cons_of_mem _ (hf b hab)
    · exact List.mem_cons_of_mem _ (ih ha)

/-- What a name of the list leads to, through whatever others, is in the list. -/
theorem mem_of_reaches {l : List α} (h : Settled f l) {a b : α} (ha : a ∈ l)
    (hab : ReflTransGen (Leads f) a b) : b ∈ l := by
  induction hab with
  | refl => exact ha
  | tail _ hbc ih => exact h.mem_of_leads ih hbc

/-- What the first name leads to in some steps stands behind it. -/
theorem mem_tail_of_transGen {a b : α} {l : List α} (h : Settled f (a :: l))
    (hab : TransGen (Leads f) a b) : b ∈ l := by
  obtain ⟨c, hac, hcb⟩ := TransGen.head'_iff.mp hab
  cases h with
  | cons _ hf hl => exact hl.mem_of_reaches (hf c hac) hcb

/-- No name of a settled list leads back to itself. -/
theorem not_transGen_self {l : List α} (h : Settled f l) {a : α} (ha : a ∈ l) :
    ¬ TransGen (Leads f) a a := by
  induction l with
  | nil => cases ha
  | cons x l ih =>
    intro hcycle
    cases h with
    | cons hx hf hl =>
      rcases List.mem_cons.mp ha with rfl | ha
      · exact hx (mem_tail_of_transGen (.cons hx hf hl) hcycle)
      · exact ih hl ha hcycle

/-- In a settled list, what a name leads to stands behind it. -/
theorem mem_of_split {l₁ l₂ : List α} {a b : α} (h : Settled f (l₁ ++ a :: l₂)) (hab : b ∈ f a) :
    b ∈ l₂ := by
  induction l₁ with
  | nil =>
    cases h with
    | cons _ hf _ => exact hf b hab
  | cons x l₁ ih => exact ih h.tail

/-- In a settled list, a name stands before all that it leads to. -/
theorem mem_before_of_leads {l₁ l₂ : List α} {a b : α} (h : Settled f (l₁ ++ b :: l₂))
    (ha : a ∈ l₁ ++ b :: l₂) (hab : b ∈ f a) : a ∈ l₁ := by
  induction l₁ with
  | nil =>
    cases h with
    | cons hb hbehind hsettled =>
      rcases List.mem_cons.mp ha with rfl | ha
      · exact absurd (hbehind _ hab) hb
      · exact absurd (hsettled.mem_of_leads ha hab) hb
  | cons x l₁ ih =>
    rcases List.mem_cons.mp ha with rfl | ha
    · exact List.mem_cons_self
    · exact List.mem_cons_of_mem _ (ih h.tail ha)

/-- A settled list of what one of its names leads to begins with that name. -/
theorem exists_eq_cons {l : List α} {n : α} (h : Settled f l) (hn : n ∈ l)
    (hfrom : ∀ a ∈ l, ReflTransGen (Leads f) n a) : ∃ rest, l = n :: rest := by
  cases l with
  | nil => cases hn
  | cons a rest =>
    rcases ReflTransGen.cases_tail (hfrom a List.mem_cons_self) with rfl | ⟨b, hnb, hba⟩
    · exact ⟨rest, rfl⟩
    · -- Any other name at the head would have to stand behind one that leads to it.
      have hsettled : Settled f ([] ++ a :: rest) := h
      cases hsettled.mem_before_of_leads (h.mem_of_reaches hn hnb) hba

/-- Only the dependents of its own names matter to a settled list. -/
theorem congr {f' : α → List α} {l : List α} (h : Settled f l)
    (hf : ∀ a ∈ l, f a = f' a) : Settled f' l := by
  induction h with
  | nil => exact .nil
  | cons ha hall _ ih =>
    refine .cons ha ?_ (ih fun b hb => hf b (List.mem_cons_of_mem _ hb))
    rwa [← hf _ List.mem_cons_self]

end Settled

/-! ### The invariant of the walk

The walk keeps a path of names that are not finished. Each name of it leads to the next, and what it
leads to besides is finished or still to be looked at.
-/

/-- What holds of each name on the path: what it leads to is pending, finished, or the name that
follows it on the path, and nothing else is pending. `child` is the name that follows the first. -/
inductive Frames (f : α → List α) (finished : List α) : Option α → List (α × List α) → Prop
  | nil {child} : Frames f finished child []
  | cons {child a pending path} :
    (∀ b ∈ f a, b ∈ pending ∨ b ∈ finished ∨ child = some b) →
    (∀ b ∈ pending, b ∈ f a) →
    (∀ b, child = some b → b ∈ f a) →
    Frames f finished (some a) path → Frames f finished child ((a, pending) :: path)

/-- What holds at every moment of the walk. -/
structure Walking (f : α → List α) (path : List (α × List α)) (finished : List α) : Prop where
  settled : Settled f finished
  nodup : (path.map Prod.fst).Nodup
  unfinished : ∀ a ∈ path.map Prod.fst, a ∉ finished
  frames : Frames f finished none path

/-- The path stays what it is when more names are finished. -/
theorem Frames.mono {finished finished' : List α} {child : Option α} {path : List (α × List α)}
    (h : Frames f finished child path) (hsub : ∀ a ∈ finished, a ∈ finished') :
    Frames f finished' child path := by
  induction h with
  | nil => exact .nil
  | cons hall hpending hchild _ ih =>
    refine .cons ?_ hpending hchild ih
    intro b hb
    rcases hall b hb with h | h | h
    · exact .inl h
    · exact .inr (.inl (hsub b h))
    · exact .inr (.inr h)

/-- Once the name that follows it is finished, the first name of a path waits for no other. -/
theorem Frames.close {finished : List α} {a : α} {path : List (α × List α)}
    (h : Frames f finished (some a) path) : Frames f (a :: finished) none path := by
  have hmono : Frames f (a :: finished) (some a) path := h.mono fun _ => List.mem_cons_of_mem _
  cases hmono with
  | nil => exact .nil
  | cons hall hpending _ hpath =>
    refine .cons ?_ hpending (by simp) hpath
    intro b hb
    rcases hall b hb with h | h | h
    · exact .inl h
    · exact .inr (.inl h)
    · cases h
      exact .inr (.inl List.mem_cons_self)

/-- Every name on the path leads to the name that follows the first. -/
theorem Frames.reaches {finished : List α} {c : α} {path : List (α × List α)}
    (h : Frames f finished (some c) path) {a : α} (ha : a ∈ path.map Prod.fst) :
    TransGen (Leads f) a c := by
  -- Each step takes one name off the path, so the name that follows it has to vary.
  generalize hchild : some c = child at h
  induction h generalizing c with
  | nil => cases ha
  | @cons _ b _ _ _ _ hnext _ ih =>
    have hbc : Leads f b c := hnext c hchild.symm
    rcases List.mem_cons.mp ha with rfl | ha
    · exact .single hbc
    · exact (ih ha rfl).tail hbc

/-- The name that comes next depends on the first name of the path. -/
theorem Walking.leads {a next : α} {rest : List α} {path : List (α × List α)} {finished : List α}
    (h : Walking f ((a, next :: rest) :: path) finished) : Leads f a next := by
  cases h.frames with
  | cons _ hpending _ _ => exact hpending next List.mem_cons_self

/-! ### Steps of the walk

One lemma for each thing that the walk can do: a name is finished, or passed over, or entered; and a
walk begins.
-/

/-- A name whose dependents are all done is finished. -/
theorem Walking.finish {a : α} {path : List (α × List α)} {finished : List α}
    (h : Walking f ((a, []) :: path) finished) : Walking f path (a :: finished) := by
  obtain ⟨hsettled, hnodup, hunfinished, hframes⟩ := h
  have hnodup := List.nodup_cons.mp hnodup
  cases hframes with
  | cons hall _ _ hpath =>
    refine ⟨.cons (hunfinished a List.mem_cons_self) ?_ hsettled, hnodup.2, ?_,
      hpath.close⟩
    · intro b hb
      simpa using hall b hb
    · intro b hb hbf
      rcases List.mem_cons.mp hbf with rfl | hbf
      · exact hnodup.1 hb
      · exact hunfinished b (List.mem_cons_of_mem _ hb) hbf

/-- A dependent that is finished is passed over. -/
theorem Walking.skip {a next : α} {rest : List α} {path : List (α × List α)} {finished : List α}
    (h : Walking f ((a, next :: rest) :: path) finished) (hnext : next ∈ finished) :
    Walking f ((a, rest) :: path) finished := by
  obtain ⟨hsettled, hnodup, hunfinished, hframes⟩ := h
  refine ⟨hsettled, hnodup, hunfinished, ?_⟩
  cases hframes with
  | cons hall hpending hchild hpath =>
    refine .cons ?_ (fun b hb => hpending b (List.mem_cons_of_mem _ hb)) hchild hpath
    intro b hb
    rcases hall b hb with h | h
    · rcases List.mem_cons.mp h with rfl | h
      · exact .inr (.inl hnext)
      · exact .inl h
    · exact .inr h

/-- A new dependent is entered. -/
theorem Walking.enter {a next : α} {rest : List α} {path : List (α × List α)} {finished : List α}
    (h : Walking f ((a, next :: rest) :: path) finished)
    (hpath : next ∉ ((a, next :: rest) :: path).map Prod.fst) (hfinished : next ∉ finished) :
    Walking f ((next, f next) :: (a, rest) :: path) finished := by
  obtain ⟨hsettled, hnodup, hunfinished, hframes⟩ := h
  refine ⟨hsettled, List.nodup_cons.mpr ⟨hpath, hnodup⟩, ?_, ?_⟩
  · intro b hb
    rcases List.mem_cons.mp hb with rfl | hb
    · exact hfinished
    · exact hunfinished b hb
  · cases hframes with
    | cons hall hpending _ hframes =>
      refine .cons (fun b hb => .inl hb) (fun _ hb => hb) (by simp) (.cons ?_
        (fun b hb => hpending b (List.mem_cons_of_mem _ hb)) ?_ hframes)
      · intro b hb
        rcases hall b hb with h | h | h
        · rcases List.mem_cons.mp h with rfl | h
          · exact .inr (.inr rfl)
          · exact .inl h
        · exact .inr (.inl h)
        · cases h
      · intro b hb
        cases hb
        exact hpending next List.mem_cons_self

/-- The walk may start from a name that is not finished. -/
theorem Walking.start {a : α} {finished : List α} (h : Settled f finished) (ha : a ∉ finished) :
    Walking f [(a, f a)] finished := by
  refine ⟨h, by simp, ?_, .cons (fun b hb => .inl hb) (fun _ hb => hb) (by simp) .nil⟩
  intro b hb
  rw [List.map_singleton, List.mem_singleton] at hb
  exact hb ▸ ha

/-! ### What one name depends on -/

/-- A way that was not there before leads through the one name whose dependees have changed. -/
theorem transGen_or_through {f f' : α → List α} {n : α}
    (h : ∀ a b, b ≠ n → b ∈ f' a → b ∈ f a) {a b : α} (hab : TransGen (Leads f') a b) :
    TransGen (Leads f) a b ∨ TransGen (Leads f') a n ∧ ReflTransGen (Leads f') n b := by
  -- Only the steps that end at `n` can be new, so the last of them splits the way.
  induction hab with
  | @single b hab =>
    by_cases hb : b = n
    · subst hb
      exact .inr ⟨.single hab, .refl⟩
    · exact .inl (.single (h a b hb hab))
  | @tail b c hab hbc ih =>
    by_cases hc : c = n
    · subst hc
      exact .inr ⟨.tail hab hbc, .refl⟩
    · rcases ih with ih | ⟨han, hnb⟩
      · exact .inl (.tail ih (h b c hc hbc))
      · exact .inr ⟨han, .tail hnb hbc⟩

/-- If a cycle comes up when the dependees of a name change, it goes through the name. -/
theorem transGen_self_of_cycle {f f' : α → List α} {n : α}
    (h : ∀ a b, b ≠ n → b ∈ f' a → b ∈ f a) (hacyclic : ∀ a, ¬ TransGen (Leads f) a a) {a : α}
    (ha : TransGen (Leads f') a a) : TransGen (Leads f') n n := by
  rcases transGen_or_through h ha with hold | ⟨han, hna⟩
  · exact absurd hold (hacyclic a)
  · exact TransGen.trans_right hna han

/-- What a name leads to does not depend on what leads to the name. -/
theorem reaches_of_away {f f' : α → List α} {n : α}
    (h : ∀ a b, b ≠ n → Leads f a b → Leads f' a b) {v : α}
    (hreaches : ReflTransGen (Leads f) n v) : ReflTransGen (Leads f') n v := by
  induction hreaches with
  | refl => exact .refl
  | @tail a b _ hab ih =>
    by_cases hb : b = n
    · exact hb ▸ .refl
    · exact .tail ih (h a b hb hab)

/-! ### The walk -/

variable [DecidableEq α] {names : List α} {dependents : α → List α}

/-- The walk ends with a settled list that extends the finished names by those on the path and by
some that they lead to. -/
theorem walk_ok {path : List (α × List α)} {finished out : List α}
    (h : Walking (following names dependents) path finished)
    (hwalk : walk names dependents path finished = .ok out) :
    Settled (following names dependents) out ∧ (∀ a ∈ finished, a ∈ out)
      ∧ (∀ a ∈ path.map Prod.fst, a ∈ out)
      ∧ ∀ b ∈ out, b ∈ finished ∨ ∃ a ∈ path.map Prod.fst,
          ReflTransGen (Leads (following names dependents)) a b := by
  fun_induction walk names dependents path finished with
  | case1 finished =>
    -- The path is empty, and the walk is at its end.
    cases hwalk
    exact ⟨h.settled, fun _ ha => ha, by simp, fun _ hb => .inl hb⟩
  | case2 finished name path ih =>
    -- All that depends on the first name is finished, and so is the name.
    obtain ⟨hsettled, hfinished, hpath, hfrom⟩ := ih h.finish hwalk
    refine ⟨hsettled, fun a ha => hfinished a (List.mem_cons_of_mem _ ha), ?_, ?_⟩
    · intro a ha
      rcases List.mem_cons.mp ha with rfl | ha
      · exact hfinished _ List.mem_cons_self
      · exact hpath a ha
    · intro b hb
      rcases hfrom b hb with h | ⟨a, ha, hab⟩
      · rcases List.mem_cons.mp h with rfl | h
        · exact .inr ⟨_, List.mem_cons_self, .refl⟩
        · exact .inl h
      · exact .inr ⟨a, List.mem_cons_of_mem _ ha, hab⟩
  | case3 =>
    -- A dependent on the path is a cycle, which ends the walk without a list.
    cases hwalk
  | case4 finished name next rest path hpath hnext ih => exact ih (h.skip hnext) hwalk
  | case5 finished name next rest path hpath hnext ih =>
    -- A dependent that is new comes first on the path.
    have hnew : next ∉ ((name, next :: rest) :: path).map Prod.fst := by
      simpa [not_or] using hpath
    have hlead := h.leads
    obtain ⟨hsettled, hfinished, hon, hfrom⟩ := ih (h.enter hnew hnext) hwalk
    refine ⟨hsettled, hfinished, fun a ha => hon a (List.mem_cons_of_mem _ ha), ?_⟩
    intro b hb
    rcases hfrom b hb with h | ⟨a, ha, hab⟩
    · exact .inl h
    · rcases List.mem_cons.mp ha with rfl | ha
      · exact .inr ⟨name, List.mem_cons_self, hab.head hlead⟩
      · exact .inr ⟨a, ha, hab⟩

/-- A name that the walk reports lies on a cycle, and the names on the path lead to it. -/
theorem walk_error {path : List (α × List α)} {finished : List α} {c : α}
    (h : Walking (following names dependents) path finished)
    (hwalk : walk names dependents path finished = .error c) :
    TransGen (Leads (following names dependents)) c c
      ∧ ∃ a ∈ path.map Prod.fst, ReflTransGen (Leads (following names dependents)) a c := by
  fun_induction walk names dependents path finished with
  | case1 => cases hwalk
  | case2 finished name path ih =>
    obtain ⟨hcycle, a, ha, hac⟩ := ih h.finish hwalk
    exact ⟨hcycle, a, List.mem_cons_of_mem _ ha, hac⟩
  | case3 finished name next rest path hpath =>
    obtain rfl : next = c := by simpa using hwalk
    -- The names on the path lead to each other down to the one that is met again.
    have hlead := h.leads
    cases h.frames with
    | cons _ _ _ hframes =>
      refine ⟨?_, name, List.mem_cons_self, .single hlead⟩
      rcases hpath with rfl | hpath
      · exact .single hlead
      · exact (hframes.reaches hpath).tail hlead
  | case4 finished name next rest path hpath hnext ih => exact ih (h.skip hnext) hwalk
  | case5 finished name next rest path hpath hnext ih =>
    have hnew : next ∉ ((name, next :: rest) :: path).map Prod.fst := by
      simpa [not_or] using hpath
    have hlead := h.leads
    obtain ⟨hcycle, a, ha, hac⟩ := ih (h.enter hnew hnext) hwalk
    refine ⟨hcycle, ?_⟩
    rcases List.mem_cons.mp ha with rfl | ha
    · exact ⟨name, List.mem_cons_self, hac.head hlead⟩
    · exact ⟨a, ha, hac⟩

/-! ### The order -/

/-- A walk from one name leaves a settled list, with that name in it. -/
theorem visit_ok {finished out : List α} {start : α}
    (h : Settled (following names dependents) finished)
    (hvisit : visit names dependents finished start = .ok out) :
    Settled (following names dependents) out ∧ (∀ a ∈ finished, a ∈ out) ∧ start ∈ out
      ∧ ∀ b ∈ out, b ∈ finished
          ∨ ReflTransGen (Leads (following names dependents)) start b := by
  unfold visit at hvisit
  split at hvisit
  · next hstart =>
    cases hvisit
    exact ⟨h, fun _ ha => ha, hstart, fun _ hb => .inl hb⟩
  · next hstart =>
    obtain ⟨hsettled, hfinished, hpath, hfrom⟩ := walk_ok (.start h hstart) hvisit
    exact ⟨hsettled, hfinished, hpath start (by simp), by simpa using hfrom⟩

/-- A name that is reported lies on a cycle, and the walk has come to it. -/
theorem visit_error {finished : List α} {start c : α}
    (h : Settled (following names dependents) finished)
    (hvisit : visit names dependents finished start = .error c) :
    TransGen (Leads (following names dependents)) c c
      ∧ ReflTransGen (Leads (following names dependents)) start c := by
  unfold visit at hvisit
  split at hvisit
  · cases hvisit
  · next hstart => simpa using walk_error (.start h hstart) hvisit

/-- What the visits of some starts add to a settled list. -/
theorem foldlM_visit_ok {starts finished out : List α}
    (h : Settled (following names dependents) finished)
    (hvisit : starts.foldlM (visit names dependents) finished = .ok out) :
    Settled (following names dependents) out ∧ (∀ a ∈ finished, a ∈ out) ∧ (∀ a ∈ starts, a ∈ out)
      ∧ ∀ b ∈ out, b ∈ finished
          ∨ ∃ a ∈ starts, ReflTransGen (Leads (following names dependents)) a b := by
  induction starts generalizing finished with
  | nil =>
    cases hvisit
    exact ⟨h, fun _ ha => ha, by simp, fun _ hb => .inl hb⟩
  | cons start starts ih =>
    rw [List.foldlM_cons, bind_eq_ok] at hvisit
    obtain ⟨middle, hfirst, hvisit⟩ := hvisit
    obtain ⟨hsettled, hkept, hstart, hfrom⟩ := visit_ok h hfirst
    obtain ⟨hsettled', hkept', hstarts', hfrom'⟩ := ih hsettled hvisit
    refine ⟨hsettled', fun a ha => hkept' a (hkept a ha), ?_, ?_⟩
    · intro a ha
      rcases List.mem_cons.mp ha with rfl | ha
      · exact hkept' _ hstart
      · exact hstarts' a ha
    · intro b hb
      rcases hfrom' b hb with hb | ⟨a, ha, hab⟩
      · rcases hfrom b hb with hb | hb
        · exact .inl hb
        · exact .inr ⟨start, List.mem_cons_self, hb⟩
      · exact .inr ⟨a, List.mem_cons_of_mem _ ha, hab⟩

theorem foldlM_visit_error {starts finished : List α} {c : α}
    (h : Settled (following names dependents) finished)
    (hvisit : starts.foldlM (visit names dependents) finished = .error c) :
    TransGen (Leads (following names dependents)) c c
      ∧ ∃ a ∈ starts, ReflTransGen (Leads (following names dependents)) a c := by
  induction starts generalizing finished with
  | nil => cases hvisit
  | cons start starts ih =>
    rw [List.foldlM_cons] at hvisit
    cases hfirst : visit names dependents finished start with
    | error c' =>
      rw [hfirst] at hvisit
      cases hvisit
      obtain ⟨hcycle, hreach⟩ := visit_error h hfirst
      exact ⟨hcycle, start, List.mem_cons_self, hreach⟩
    | ok middle =>
      rw [hfirst] at hvisit
      obtain ⟨hcycle, a, ha, hac⟩ := ih (visit_ok h hfirst).1 hvisit
      exact ⟨hcycle, a, List.mem_cons_of_mem _ ha, hac⟩

/-- The order holds exactly what the starts lead to, each name before all that it leads to. -/
theorem order_ok {starts out : List α} (h : order names dependents starts = .ok out) :
    Settled (following names dependents) out
      ∧ ∀ b, b ∈ out ↔ ∃ a ∈ starts, ReflTransGen (Leads (following names dependents)) a b := by
  obtain ⟨hsettled, -, hstarts, hfrom⟩ := foldlM_visit_ok .nil h
  refine ⟨hsettled, fun b => ⟨fun hb => ?_, ?_⟩⟩
  · simpa using hfrom b hb
  · rintro ⟨a, ha, hab⟩
    exact hsettled.mem_of_reaches (hstarts a ha) hab

/-- A name that is reported lies on a cycle that one of the starts leads to. -/
theorem order_error {starts : List α} {c : α} (h : order names dependents starts = .error c) :
    TransGen (Leads (following names dependents)) c c
      ∧ ∃ a ∈ starts, ReflTransGen (Leads (following names dependents)) a c :=
  foldlM_visit_error .nil h

/-! ### The name that is reported -/

/-- From a name to one that depends on it, other than `n`. -/
def LeadsOff (f : α → List α) (n a b : α) : Prop := Leads f a b ∧ b ≠ n

omit [DecidableEq α] in
/-- The last name of a path stands nowhere else in it. -/
theorem ne_of_getLast? {a n : α} {l : List α} (hnodup : (a :: l).Nodup) (hl : l ≠ [])
    (hlast : (a :: l).getLast? = some n) : a ≠ n ∧ l.getLast? = some n := by
  obtain ⟨b, l, rfl⟩ := List.exists_cons_of_ne_nil hl
  rw [List.getLast?_cons_cons] at hlast
  refine ⟨?_, hlast⟩
  rintro rfl
  exact (List.nodup_cons.mp hnodup).1 (List.mem_of_getLast? hlast)

omit [DecidableEq α] in
/-- Along the path no step leads to the name from which it starts. -/
theorem Frames.reachesOff {finished : List α} {c n : α} {path : List (α × List α)}
    (h : Frames f finished (some c) path) (hnodup : (path.map Prod.fst).Nodup)
    (hlast : (path.map Prod.fst).getLast? = some n) (hc : c ≠ n) {a : α}
    (ha : a ∈ path.map Prod.fst) : TransGen (LeadsOff f n) a c := by
  -- As for `reaches`, but the names that are taken off the path differ from the last one.
  generalize hchild : some c = child at h
  induction h generalizing c with
  | nil => cases ha
  | @cons _ b _ path _ _ hnext _ ih =>
    have hbc : LeadsOff f n b c := ⟨hnext c hchild.symm, hc⟩
    rcases List.mem_cons.mp ha with rfl | ha
    · exact .single hbc
    · obtain ⟨hb, hlast⟩ := ne_of_getLast? hnodup (List.ne_nil_of_mem ha) hlast
      exact (ih (List.nodup_cons.mp hnodup).2 hlast hb ha rfl).tail hbc

/-- If all cycles lead through the name from which the walk has started, then the walk reports no
other. -/
theorem walk_error_eq {path : List (α × List α)} {finished : List α} {c n : α}
    (h : Walking (following names dependents) path finished)
    (hlast : (path.map Prod.fst).getLast? = some n)
    (hacyclic : ∀ a, ¬ TransGen (LeadsOff (following names dependents) n) a a)
    (hwalk : walk names dependents path finished = .error c) : c = n := by
  fun_induction walk names dependents path finished with
  | case1 => cases hwalk
  | case2 finished name path ih =>
    cases path with
    | nil =>
      rw [walk] at hwalk
      cases hwalk
    | cons step path =>
      exact ih h.finish (ne_of_getLast? h.nodup (List.cons_ne_nil _ _) hlast).2 hwalk
  | case3 finished name next rest path hpath =>
    obtain rfl : next = c := by simpa using hwalk
    by_contra hnext
    have hlead : LeadsOff (following names dependents) n name next := ⟨h.leads, hnext⟩
    -- The names from the one that is met again up to the first form a cycle.
    apply hacyclic next
    rcases hpath with rfl | hpath
    · exact .single hlead
    · obtain ⟨hname, hlast⟩ := ne_of_getLast? h.nodup (List.ne_nil_of_mem hpath) hlast
      cases h.frames with
      | cons _ _ _ hframes =>
        exact (hframes.reachesOff (List.nodup_cons.mp h.nodup).2 hlast hname hpath).tail hlead
  | case4 finished name next rest path hpath hnext ih => exact ih (h.skip hnext) hlast hwalk
  | case5 finished name next rest path hpath hnext ih =>
    have hnew : next ∉ ((name, next :: rest) :: path).map Prod.fst := by
      simpa [not_or] using hpath
    refine ih (h.enter hnew hnext) ?_ hwalk
    rw [List.map_cons, List.map_cons, List.getLast?_cons_cons]
    exact hlast

/-- If all cycles lead through the one start, then no other name is reported. -/
theorem order_error_eq {n c : α}
    (hacyclic : ∀ a, ¬ TransGen (LeadsOff (following names dependents) n) a a)
    (h : order names dependents [n] = .error c) : c = n := by
  have hvisit : visit names dependents [] n = .error c := by
    rw [order, List.foldlM_cons] at h
    cases hfirst : visit names dependents [] n with
    | error c' =>
      rw [hfirst] at h
      cases h
      rfl
    | ok middle =>
      rw [hfirst] at h
      cases h
  rw [visit, if_neg List.not_mem_nil] at hvisit
  exact walk_error_eq (.start .nil List.not_mem_nil) rfl hacyclic hvisit

/-! ### The list of names -/

/-- Where nothing outside of a list leads anywhere, no names are lost by keeping to the list. -/
theorem following_eq {names : List α} {dependents : α → List α}
    (h : ∀ a, a ∉ names → dependents a = []) : following names dependents = dependents := by
  funext a
  unfold following
  split
  · rfl
  · next ha => exact (h a ha).symm

/-- The walk depends on what the names lead to, and not on how they are listed. -/
theorem walk_congr {names' : List α} {dependents' : α → List α}
    (h : following names dependents = following names' dependents') (path : List (α × List α))
    (finished : List α) :
    walk names dependents path finished = walk names' dependents' path finished := by
  fun_induction walk names dependents path finished with
  | case1 => rw [walk]
  | case2 finished name path ih => rw [walk, ih]
  | case3 finished name next rest path hpath => rw [walk, if_pos hpath]
  | case4 finished name next rest path hpath hnext ih =>
    rw [walk, if_neg hpath, if_pos hnext, ih]
  | case5 finished name next rest path hpath hnext ih =>
    rw [walk, if_neg hpath, if_neg hnext, ih, h]

/-- The order depends only on what the names of the list lead to. -/
theorem order_congr {names' : List α} {dependents' : α → List α}
    (h : following names dependents = following names' dependents') (starts : List α) :
    order names dependents starts = order names' dependents' starts := by
  have hvisit : visit names dependents = visit names' dependents' := by
    funext finished start
    unfold visit
    rw [walk_congr h, h]
  unfold order
  rw [hvisit]

end Worksheet.Recalculation
