import Worksheet.Proofs.Graph.Valid

/-!
# Replacing the dependees of a name

What becomes of the rows of a valid graph when pairs of slots are entered and taken out, and from
that, what becomes of both views when the dependees of a name are replaced.

* `dependents_replaceDependees`, `dependees_replaceDependees`: both views, in order, afterwards.
* `size_replaceDependees`: how many pairs there are afterwards.
-/

namespace Worksheet.Graph

/-! ### Lists without repetitions

Rows of a graph hold no slot twice. A slot is put at the end of a row, or is there already; names
and slots are exchanged for each other under maps that are injective on the list.
-/

section Lists

variable {α β : Type} [DecidableEq α] [DecidableEq β]

/-- The list with a value at its end, unless it holds the value. -/
def placed (l : List α) (a : α) : List α := if a ∈ l then l else l ++ [a]

/-- Placing adds one element. -/
theorem mem_placed {l : List α} {a b : α} : b ∈ placed l a ↔ b ∈ l ∨ b = a := by
  unfold placed
  split
  · next ha =>
    refine ⟨.inl, ?_⟩
    rintro (hb | rfl)
    · exact hb
    · exact ha
  · rw [List.mem_append, List.mem_singleton]

/-- An element that is there already is not placed again. -/
theorem nodup_placed {l : List α} (h : l.Nodup) (a : α) : (placed l a).Nodup := by
  unfold placed
  split
  · exact h
  · next ha =>
    refine List.nodup_append.mpr ⟨h, List.nodup_singleton a, ?_⟩
    intro b hb c hc
    rw [List.mem_singleton.mp hc]
    rintro rfl
    exact ha hb

theorem nodup_eraseDups (l : List α) : l.eraseDups.Nodup := by
  induction hn : l.length using Nat.strong_induction_on generalizing l with
  | _ n ih =>
    cases l with
    | nil => exact List.nodup_nil
    | cons a l =>
      rw [List.eraseDups_cons, List.nodup_cons]
      refine ⟨by simp, ih _ ?_ _ rfl⟩
      rw [← hn, List.length_cons]
      exact Nat.lt_succ_of_le (List.length_filter_le _ _)

/-- Placing can be seen through a map that tells the elements apart. -/
theorem map_placed {f : α → β} {l : List α} {a : α} (h : ∀ x ∈ l, f x = f a → x = a) :
    (placed l a).map f = placed (l.map f) (f a) := by
  -- Nothing else in the list has the image of `a`.
  have hmem : f a ∈ l.map f ↔ a ∈ l := by
    rw [List.mem_map]
    refine ⟨?_, fun ha => ⟨a, ha, rfl⟩⟩
    rintro ⟨x, hx, hxa⟩
    exact h x hx hxa ▸ hx
  by_cases ha : a ∈ l
  · rw [placed, placed, if_pos ha, if_pos (hmem.mpr ha)]
  · rw [placed, placed, if_neg ha, if_neg (mt hmem.mp ha), List.map_append]
    rfl

/-- So can erasing. -/
theorem map_erase_of_inj {f : α → β} {l : List α} {a : α} (h : ∀ x ∈ l, f x = f a → x = a) :
    (l.erase a).map f = (l.map f).erase (f a) := by
  induction l with
  | nil => rfl
  | cons x l ih =>
    have ih := ih fun y hy => h y (List.mem_cons_of_mem _ hy)
    by_cases hx : x = a
    · subst hx
      simp
    · have hfx : f x ≠ f a := mt (h x List.mem_cons_self) hx
      simp [hx, hfx, ih]

/-- And so can the removal of repetitions. -/
theorem map_eraseDups {f : α → β} {l : List α} (h : ∀ x ∈ l, ∀ y ∈ l, f x = f y → x = y) :
    l.eraseDups.map f = (l.map f).eraseDups := by
  induction hn : l.length using Nat.strong_induction_on generalizing l with
  | _ n ih =>
    cases l with
    | nil => rfl
    | cons a l =>
      have hfilter : (l.map f).filter (fun b => !b == f a)
          = (l.filter fun b => !b == a).map f := by
        rw [List.filter_map]
        congr 1
        apply List.filter_congr
        intro x hx
        have := h x (List.mem_cons_of_mem _ hx) a List.mem_cons_self
        by_cases hxa : x = a
        · simp [hxa]
        · simp [hxa, mt this hxa]
      rw [List.eraseDups_cons, List.map_cons, List.map_cons, List.eraseDups_cons, hfilter]
      congr 1
      refine ih _ ?_ ?_ rfl
      · rw [← hn, List.length_cons]
        exact Nat.lt_succ_of_le (List.length_filter_le _ _)
      · intro x hx y hy
        exact h x (List.mem_cons_of_mem _ (List.mem_filter.mp hx).1) y
          (List.mem_cons_of_mem _ (List.mem_filter.mp hy).1)

end Lists

variable {g g' : Graph} {a b : String} {s t : Nat}

/-! ### One pair

What entering and removing a single pair does to both rows that it touches. All other changes are
made of these two.
-/

@[simp] theorem names_link (g : Graph) (s t : Nat) : (g.link s t).names = g.names := by
  unfold link
  split <;> rfl

@[simp] theorem names_unlink (g : Graph) (s t : Nat) : (g.unlink s t).names = g.names := by
  unfold unlink
  split <;> rfl

/-- A pair that is there already is not counted again. -/
theorem size_link (g : Graph) (s t : Nat) :
    (g.link s t).size = if t ∈ row g.forward s then g.size else g.size + 1 := by
  unfold link
  split <;> rfl

/-- A pair that is not there is not counted off. -/
theorem size_unlink (g : Graph) (s t : Nat) :
    (g.unlink s t).size = if t ∈ row g.forward s then g.size - 1 else g.size := by
  unfold unlink
  split <;> rfl

namespace Valid

/-- Entering a pair places its end in the row of its start. -/
theorem row_forward_link (h : Valid g) (hs : s < g.names.length) (x : Nat) :
    row (g.link s t).forward x
      = if x = s then placed (row g.forward x) t else row g.forward x := by
  by_cases hx : x = s
  · subst hx
    rw [if_pos rfl, placed, link]
    split
    · rfl
    · exact row_modify_self _ (h.length_forward ▸ hs)
  · rw [if_neg hx, link]
    split
    · rfl
    · exact row_modify_ne _ hx

/-- And its start in the row of its end. That the pair is new to the one row if it is to the other
takes a valid graph. -/
theorem row_backward_link (h : Valid g) (ht : t < g.names.length) (y : Nat) :
    row (g.link s t).backward y
      = if y = t then placed (row g.backward y) s else row g.backward y := by
  by_cases hy : y = t
  · subst hy
    rw [if_pos rfl, placed, link]
    simp only [h.mirror]
    split
    · rfl
    · exact row_modify_self _ (h.length_backward ▸ ht)
  · rw [if_neg hy, link]
    split
    · rfl
    · exact row_modify_ne _ hy

/-- Removing a pair erases its end from the row of its start. -/
theorem row_forward_unlink (_ : Valid g) (x : Nat) :
    row (g.unlink s t).forward x
      = if x = s then (row g.forward x).erase t else row g.forward x := by
  unfold unlink
  split
  · exact row_modify_erase _ _ _ _
  · next ht =>
    split
    · next hx =>
      subst hx
      exact (List.erase_of_not_mem ht).symm
    · rfl

/-- And its start from the row of its end. -/
theorem row_backward_unlink (h : Valid g) (y : Nat) :
    row (g.unlink s t).backward y
      = if y = t then (row g.backward y).erase s else row g.backward y := by
  unfold unlink
  split
  · exact row_modify_erase _ _ _ _
  · next ht =>
    split
    · next hy =>
      subst hy
      exact (List.erase_of_not_mem (mt (h.mirror s y).mpr ht)).symm
    · rfl

/-- A graph stays valid when a pair of known slots is entered. -/
theorem link (h : Valid g) (hs : s < g.names.length) (ht : t < g.names.length) :
    Valid (g.link s t) where
  nodup_names := by
    rw [names_link]
    exact h.nodup_names
  length_forward := by
    rw [names_link, ← h.length_forward, Graph.link]
    split
    · rfl
    · exact List.length_modify _ _ _
  length_backward := by
    rw [names_link, ← h.length_backward, Graph.link]
    split
    · rfl
    · exact List.length_modify _ _ _
  mirror x y := by
    rw [h.row_forward_link hs, h.row_backward_link ht]
    have hmirror := h.mirror x y
    by_cases hx : x = s <;> by_cases hy : y = t <;> simp [hx, hy, mem_placed] <;> simp_all
  nodup_forward x := by
    rw [h.row_forward_link hs]
    split
    · exact nodup_placed (h.nodup_forward x) t
    · exact h.nodup_forward x
  nodup_backward y := by
    rw [h.row_backward_link ht]
    split
    · exact nodup_placed (h.nodup_backward y) s
    · exact h.nodup_backward y

/-- And when any pair is removed. -/
theorem unlink (h : Valid g) (s t : Nat) : Valid (g.unlink s t) where
  nodup_names := by
    rw [names_unlink]
    exact h.nodup_names
  length_forward := by
    rw [names_unlink, ← h.length_forward, Graph.unlink]
    split
    · exact List.length_modify _ _ _
    · rfl
  length_backward := by
    rw [names_unlink, ← h.length_backward, Graph.unlink]
    split
    · exact List.length_modify _ _ _
    · rfl
  mirror x y := by
    rw [h.row_forward_unlink, h.row_backward_unlink]
    have hmirror := h.mirror x y
    have hx := (h.nodup_forward x).mem_erase_iff (a := y) (b := t)
    have hy := (h.nodup_backward y).mem_erase_iff (a := x) (b := s)
    by_cases hxs : x = s <;> by_cases hyt : y = t <;> simp_all
  nodup_forward x := by
    rw [h.row_forward_unlink]
    split
    · exact (h.nodup_forward x).erase t
    · exact h.nodup_forward x
  nodup_backward y := by
    rw [h.row_backward_unlink]
    split
    · exact (h.nodup_backward y).erase s
    · exact h.nodup_backward y

end Valid

/-- The dependents in a graph of which one row has changed. -/
theorem dependents_of_row {f : List Nat → List Nat} (hnames : g'.names = g.names)
    (hrow : ∀ x, row g'.forward x = if x = s then f (row g.forward x) else row g.forward x)
    (ha : g.slot? a = some s) (x : String) :
    g'.dependents x = if x = a then (f (row g.forward s)).map g.nameAt else g.dependents x := by
  have hnameAt : g'.nameAt = g.nameAt := nameAt_congr hnames
  have hslot : g'.slot? = g.slot? := slot?_congr hnames
  cases hx : g.slot? x with
  | none =>
    have hne : x ≠ a := by
      rintro rfl
      cases hx.symm.trans ha
    rw [if_neg hne, dependents_eq_nil hx, dependents_eq_nil (by rw [hslot, hx])]
  | some u =>
    rw [dependents_eq (by rw [hslot, hx]), dependents_eq hx, hrow, hnameAt]
    by_cases hxa : x = a
    · subst hxa
      cases hx.symm.trans ha
      rw [if_pos rfl, if_pos rfl]
    · rw [if_neg hxa, if_neg]
      rintro rfl
      exact hxa (slot?_inj hx ha)

namespace Valid

/-- In names, the dependents of the start gain the end. -/
theorem dependents_link (h : Valid g) (ha : g.slot? a = some s) (hb : g.slot? b = some t)
    (x : String) : (g.link s t).dependents x
      = if x = a then placed (g.dependents x) b else g.dependents x := by
  rw [dependents_of_row (f := (placed · t)) (names_link g s t)
    (h.row_forward_link (lt_of_slot? ha)) ha]
  split
  · next hx =>
    rw [hx, dependents_eq ha, map_placed (h.eq_of_nameAt_eq (lt_of_slot? hb)), nameAt_of_slot? hb]
  · rfl

/-- In names, the dependents of the start lose the end. -/
theorem dependents_unlink (h : Valid g) (ha : g.slot? a = some s) (hb : g.slot? b = some t)
    (x : String) : (g.unlink s t).dependents x
      = if x = a then (g.dependents x).erase b else g.dependents x := by
  rw [dependents_of_row (f := (·.erase t)) (names_unlink g s t) h.row_forward_unlink ha]
  split
  · next hx =>
    rw [hx, dependents_eq ha, map_erase_of_inj (h.eq_of_nameAt_eq (lt_of_slot? hb)),
      nameAt_of_slot? hb]
  · rfl

end Valid

/-! ### The pairs that end at one slot

To replace the dependees of a name is to remove some pairs that end at its slot and to enter others.
`Rewired` says what has become of a graph then; removals and entries each lead to it, by induction
on the list of slots, and so do both in turn.
-/

/-- What a valid graph is after changes to pairs that end at slot `t`. -/
structure Rewired (g : Graph) (t : Nat) (forward : Nat → List Nat) (backward : List Nat)
    (size : Nat) (g' : Graph) : Prop where
  valid : Valid g'
  names : g'.names = g.names
  row_forward : ∀ x, row g'.forward x = forward x
  row_backward_self : row g'.backward t = backward
  row_backward_ne : ∀ y, y ≠ t → row g'.backward y = row g.backward y
  size : g'.size = size

namespace Rewired

variable {forward : Nat → List Nat} {backward : List Nat} {size : Nat}

theorem nameAt (h : Rewired g t forward backward size g') : g'.nameAt = g.nameAt :=
  nameAt_congr h.names

theorem slot? (h : Rewired g t forward backward size g') (x : String) :
    g'.slot? x = g.slot? x :=
  congrFun (slot?_congr h.names) x

/-- The dependees of the name itself are those of the new row. -/
theorem dependees_self (h : Rewired g t forward backward size g') (hb : g.slot? b = some t) :
    g'.dependees b = backward.map g.nameAt := by
  rw [dependees_eq ((h.slot? b).trans hb), h.row_backward_self, h.nameAt]

/-- All other names keep theirs. -/
theorem dependees_ne (h : Rewired g t forward backward size g') (hb : g.slot? b = some t)
    (ha : a ≠ b) : g'.dependees a = g.dependees a := by
  cases hslot : g.slot? a with
  | none => rw [dependees_eq_nil ((h.slot? a).trans hslot), dependees_eq_nil hslot]
  | some s =>
    have hst : s ≠ t := by
      rintro rfl
      exact ha (slot?_inj hslot hb)
    rw [dependees_eq ((h.slot? a).trans hslot), dependees_eq hslot, h.row_backward_ne s hst,
      h.nameAt]

end Rewired

namespace Valid

/-- Pairs that are there are removed one after the other. -/
theorem unlinks (h : Valid g) {sources : List Nat} (hnodup : sources.Nodup)
    (hsources : ∀ s ∈ sources, s ∈ row g.backward t) :
    Rewired g t (fun x => if x ∈ sources then (row g.forward x).erase t else row g.forward x)
      ((row g.backward t).filter (· ∉ sources)) (g.size - sources.length)
      (sources.foldl (fun g s => g.unlink s t) g) := by
  induction sources generalizing g with
  | nil => exact ⟨h, rfl, by simp, by simp, fun _ _ => rfl, rfl⟩
  | cons s sources ih =>
    obtain ⟨hs, hnodup⟩ := List.nodup_cons.mp hnodup
    have hst : t ∈ row g.forward s := (h.mirror s t).mpr (hsources s List.mem_cons_self)
    have hafter : row (g.unlink s t).backward t = (row g.backward t).erase s := by
      rw [h.row_backward_unlink, if_pos rfl]
    -- No source occurs twice, so the others still stand in the row.
    have hrest : ∀ x ∈ sources, x ∈ row (g.unlink s t).backward t := by
      intro x hx
      rw [hafter, List.mem_erase_of_ne (ne_of_mem_of_not_mem hx hs)]
      exact hsources x (List.mem_cons_of_mem _ hx)
    have hout := ih (h.unlink s t) hnodup hrest
    refine ⟨hout.valid, hout.names.trans (names_unlink g s t), ?_, ?_, ?_, ?_⟩
    · intro x
      rw [List.foldl_cons, hout.row_forward, h.row_forward_unlink]
      by_cases hx : x = s
      · simp [hx, hs]
      · simp [hx]
    · rw [List.foldl_cons, hout.row_backward_self, hafter, (h.nodup_backward t).erase_eq_filter,
        List.filter_filter]
      apply List.filter_congr
      intro x _
      by_cases hx : x = s <;> simp [hx]
    · intro y hy
      rw [List.foldl_cons, hout.row_backward_ne y hy, h.row_backward_unlink, if_neg hy]
    · rw [List.foldl_cons, hout.size, size_unlink, if_pos hst, List.length_cons]
      omega

/-- Pairs are entered one after the other, and those that are there already stay in their places. -/
theorem links (h : Valid g) (ht : t < g.names.length) {sources : List Nat}
    (hnodup : sources.Nodup) (hsources : ∀ s ∈ sources, s < g.names.length) :
    Rewired g t
      (fun x => if x ∈ sources then placed (row g.forward x) t else row g.forward x)
      (row g.backward t ++ sources.filter (· ∉ row g.backward t))
      (g.size + (sources.filter (· ∉ row g.backward t)).length)
      (sources.foldl (fun g s => g.link s t) g) := by
  induction sources generalizing g with
  | nil => exact ⟨h, rfl, by simp, by simp, fun _ _ => rfl, rfl⟩
  | cons s sources ih =>
    obtain ⟨hs, hnodup⟩ := List.nodup_cons.mp hnodup
    have hslt := hsources s List.mem_cons_self
    have hafter : row (g.link s t).backward t = placed (row g.backward t) s := by
      rw [h.row_backward_link ht, if_pos rfl]
    -- The source that was entered is none of the others, so it hides none of them.
    have hfilter : sources.filter (· ∉ placed (row g.backward t) s)
        = sources.filter (· ∉ row g.backward t) := by
      apply List.filter_congr
      intro x hx
      simp [mem_placed, ne_of_mem_of_not_mem hx hs]
    have hrest : ∀ x ∈ sources, x < (g.link s t).names.length := by
      intro x hx
      rw [names_link]
      exact hsources x (List.mem_cons_of_mem _ hx)
    have hout := ih (h.link hslt ht) (by rwa [names_link]) hnodup hrest
    refine ⟨hout.valid, hout.names.trans (names_link g s t), ?_, ?_, ?_, ?_⟩
    · intro x
      rw [List.foldl_cons, hout.row_forward, h.row_forward_link hslt]
      by_cases hx : x = s
      · simp [hx, hs]
      · simp [hx]
    · rw [List.foldl_cons, hout.row_backward_self, hafter, hfilter, placed]
      by_cases hst : s ∈ row g.backward t <;> simp [hst]
    · intro y hy
      rw [List.foldl_cons, hout.row_backward_ne y hy, h.row_backward_link ht, if_neg hy]
    · rw [List.foldl_cons, hout.size, size_link, hafter, hfilter]
      by_cases hst : t ∈ row g.forward s
      · simp [hst, (h.mirror s t).mp hst]
      · simp [hst, mt (h.mirror s t).mpr hst]
        omega

/-- The dependees of a slot are exchanged for the wanted ones: those that stay keep their places,
and the missing ones come behind them. -/
theorem exchange (h : Valid g) (ht : t < g.names.length) {wanted : List Nat}
    (hwanted : ∀ s ∈ wanted, s < g.names.length) :
    Rewired g t
      (fun x => if x ∈ wanted then placed (row g.forward x) t else (row g.forward x).erase t)
      ((row g.backward t).filter (· ∈ wanted)
        ++ wanted.eraseDups.filter (· ∉ row g.backward t))
      (g.size - ((row g.backward t).filter (· ∉ wanted)).length
        + (wanted.eraseDups.filter (· ∉ row g.backward t)).length)
      (g.exchange (fun g s => g.unlink s t) (fun g s => g.link s t) (row g.backward t) wanted) := by
  have hdropped := h.unlinks ((h.nodup_backward t).filter (· ∉ wanted))
    fun s hs => (List.mem_filter.mp hs).1
  have hentered := hdropped.valid.links (by rwa [hdropped.names]) (nodup_eraseDups wanted)
    fun s hs => hdropped.names ▸ hwanted s (List.mem_eraseDups.mp hs)
  rw [hdropped.row_backward_self] at hentered
  -- What is dropped is what is not wanted, so what stays is what is wanted.
  have hkept : (row g.backward t).filter (· ∉ (row g.backward t).filter (· ∉ wanted))
      = (row g.backward t).filter (· ∈ wanted) := by
    apply List.filter_congr
    intro x hx
    simp [hx]
  -- A wanted slot that is missing then was missing before.
  have hmissing : wanted.eraseDups.filter (· ∉ (row g.backward t).filter (· ∈ wanted))
      = wanted.eraseDups.filter (· ∉ row g.backward t) := by
    apply List.filter_congr
    intro x hx
    simp [List.mem_eraseDups.mp hx]
  refine ⟨hentered.valid, hentered.names.trans hdropped.names, ?_, ?_, ?_, ?_⟩
  · intro x
    rw [Graph.exchange, hentered.row_forward, hdropped.row_forward]
    by_cases hx : x ∈ wanted
    · simp [hx]
    · by_cases hxt : t ∈ row g.forward x
      · simp [hx, (h.mirror x t).mp hxt]
      · simp [hx, List.erase_of_not_mem hxt]
  · rw [Graph.exchange, hentered.row_backward_self, hkept, hmissing]
  · intro y hy
    rw [Graph.exchange, hentered.row_backward_ne y hy, hdropped.row_backward_ne y hy]
  · rw [Graph.exchange, hentered.size, hkept, hmissing, hdropped.size]

end Valid

/-! ### Names

Names are given slots before anything is exchanged, so a graph grows first. What has been said of
slots is then said of names.
-/

/-- Some names and their slots, in the same order. -/
def SlotsOf (g : Graph) (names : List String) (slots : List Nat) : Prop :=
  List.Forall₂ (fun a s => g.slot? a = some s) names slots

namespace SlotsOf

variable {names : List String} {slots : List Nat}

/-- The slots of names are slots of the graph. -/
theorem lt (h : SlotsOf g names slots) : ∀ s ∈ slots, s < g.names.length := by
  induction h with
  | nil => simp
  | cons ha _ ih =>
    intro s hs
    rcases List.mem_cons.mp hs with rfl | hs
    · exact lt_of_slot? ha
    · exact ih s hs

/-- Slots and names stand in the same order. -/
theorem map_nameAt (h : SlotsOf g names slots) : slots.map g.nameAt = names := by
  induction h with
  | nil => rfl
  | cons ha _ ih => rw [List.map_cons, nameAt_of_slot? ha, ih]

/-- A slot is among those of the names if and only if its name is among the names. -/
theorem mem_iff (h : SlotsOf g names slots) (hg : Valid g) (hs : s < g.names.length) :
    g.nameAt s ∈ names ↔ s ∈ slots := by
  rw [← h.map_nameAt, List.mem_map]
  refine ⟨?_, fun hmem => ⟨s, hmem, rfl⟩⟩
  rintro ⟨x, hx, hname⟩
  exact hg.nameAt_inj (h.lt x hx) hs hname ▸ hx

end SlotsOf

/-- A graph that has seen a name and some more. -/
def seen (g : Graph) (node : String) (names : List String) : Graph :=
  ((g.intern node).2.internAll names).2

/-- A graph that has seen more names has grown, and nothing else. -/
theorem grown_seen (g : Graph) (node : String) (names : List String) :
    Grown g (g.seen node names) :=
  (grown_intern g node).trans (grown_internAll _ names)

/-- It stays valid. -/
theorem Valid.seen (h : Valid g) (node : String) (names : List String) :
    Valid (g.seen node names) :=
  (h.intern node).internAll names

/-- Replacing the dependees of a name is an exchange of slots, once all names have been seen. -/
theorem exists_exchange (g : Graph) (node : String) (names : List String) :
    ∃ t wanted, (g.seen node names).slot? node = some t
      ∧ SlotsOf (g.seen node names) names wanted
      ∧ g.replaceDependees node names
        = (g.seen node names).exchange (fun g s => g.unlink s t) (fun g s => g.link s t)
            (row (g.seen node names).backward t) wanted := by
  refine ⟨(g.intern node).1, ((g.intern node).2.internAll names).1, ?_,
    slots_internAll _ names, rfl⟩
  exact slot?_of_names (grown_internAll _ names).names (slot?_intern g node)

/-- A graph stays valid when the dependees of a name are replaced. -/
theorem Valid.replaceDependees (h : Valid g) (node : String) (names : List String) :
    Valid (g.replaceDependees node names) := by
  have hk := h.seen node names
  obtain ⟨t, wanted, ht, hwanted, heq⟩ := exists_exchange g node names
  rw [heq]
  exact (hk.exchange (lt_of_slot? ht) hwanted.lt).valid

/-- The node stays where it stands among the dependents of a name that it still depends on. It comes
last among those of a name that it did not depend on, and leaves all others. -/
theorem dependents_replaceDependees (h : Valid g) (node : String) (names : List String)
    (x : String) :
    (g.replaceDependees node names).dependents x
      = if x ∈ names then placed (g.dependents x) node else (g.dependents x).erase node := by
  have hk := h.seen node names
  have hgrown := grown_seen g node names
  obtain ⟨t, wanted, ht, hwanted, heq⟩ := exists_exchange g node names
  generalize g.seen node names = k at *
  have hout := hk.exchange (lt_of_slot? ht) hwanted.lt
  rw [← heq] at hout
  rw [← hgrown.dependents h x]
  cases hx : k.slot? x with
  | none =>
    -- All wanted names have been seen, so this one is not wanted.
    rw [dependents_eq_nil ((hout.slot? x).trans hx), dependents_eq_nil hx, if_neg]
    · rfl
    · rw [← hwanted.map_nameAt, List.mem_map]
      rintro ⟨s, hs, rfl⟩
      rw [slot?_nameAt hk.nodup_names (hwanted.lt s hs)] at hx
      cases hx
  | some s =>
    have hmem := hwanted.mem_iff hk (lt_of_slot? hx)
    rw [nameAt_of_slot? hx] at hmem
    have hinj : ∀ y ∈ row k.forward s, k.nameAt y = k.nameAt t → y = t :=
      hk.eq_of_nameAt_eq (lt_of_slot? ht)
    rw [dependents_eq ((hout.slot? x).trans hx), dependents_eq hx, hout.row_forward, hout.nameAt,
      ← nameAt_of_slot? ht]
    by_cases hs : s ∈ wanted
    · rw [if_pos hs, if_pos (hmem.mpr hs), map_placed hinj]
    · rw [if_neg hs, if_neg (mt hmem.mp hs), map_erase_of_inj hinj]

/-- The names of the slots that an exchange keeps. -/
theorem SlotsOf.map_filter_mem {names : List String} {wanted : List Nat}
    (h : SlotsOf g names wanted) (hg : Valid g) (ht : g.slot? b = some t) :
    ((row g.backward t).filter (· ∈ wanted)).map g.nameAt = (g.dependees b).filter (· ∈ names) := by
  rw [dependees_eq ht, List.filter_map]
  refine congrArg (List.map g.nameAt) (List.filter_congr ?_)
  intro s hs
  exact decide_eq_decide.mpr (h.mem_iff hg (hg.flip.target_lt hs)).symm

/-- The names of the slots that an exchange enters. -/
theorem SlotsOf.map_filter_not_mem {names : List String} {wanted : List Nat}
    (h : SlotsOf g names wanted) (hg : Valid g) (ht : g.slot? b = some t) :
    (wanted.eraseDups.filter (· ∉ row g.backward t)).map g.nameAt
      = names.eraseDups.filter (· ∉ g.dependees b) := by
  have hdups := map_eraseDups (f := g.nameAt) (l := wanted) fun x hx y hy =>
    hg.nameAt_inj (h.lt x hx) (h.lt y hy)
  rw [h.map_nameAt] at hdups
  rw [← hdups, List.filter_map]
  refine congrArg (List.map g.nameAt) (List.filter_congr ?_)
  intro s hs
  have hslot := slot?_nameAt hg.nodup_names (h.lt s (List.mem_eraseDups.mp hs))
  exact decide_eq_decide.mpr (not_congr (hg.mem_dependees_iff hslot ht).symm)

/-- The dependees that stay keep their places, and the new ones come behind them. -/
theorem dependees_replaceDependees (h : Valid g) (node : String) (names : List String)
    (y : String) :
    (g.replaceDependees node names).dependees y
      = if y = node then (g.dependees node).filter (· ∈ names)
          ++ names.eraseDups.filter (· ∉ g.dependees node)
        else g.dependees y := by
  have hk := h.seen node names
  have hgrown := grown_seen g node names
  obtain ⟨t, wanted, ht, hwanted, heq⟩ := exists_exchange g node names
  generalize g.seen node names = k at *
  have hout := hk.exchange (lt_of_slot? ht) hwanted.lt
  rw [← heq] at hout
  rw [← hgrown.dependees h y, ← hgrown.dependees h node]
  by_cases hy : y = node
  · subst hy
    rw [if_pos rfl, hout.dependees_self ht, List.map_append, hwanted.map_filter_mem hk ht,
      hwanted.map_filter_not_mem hk ht]
  · rw [if_neg hy, hout.dependees_ne ht hy]

/-- The pairs that go are taken off the number of pairs, and those that come are added. -/
theorem size_replaceDependees (h : Valid g) (node : String) (names : List String) :
    (g.replaceDependees node names).size
      = g.size - ((g.dependees node).filter (· ∉ names)).length
          + (names.eraseDups.filter (· ∉ g.dependees node)).length := by
  have hk := h.seen node names
  have hgrown := grown_seen g node names
  obtain ⟨t, wanted, ht, hwanted, heq⟩ := exists_exchange g node names
  generalize g.seen node names = k at *
  have hout := hk.exchange (lt_of_slot? ht) hwanted.lt
  rw [← heq] at hout
  have hdropped : ((k.dependees node).filter (· ∉ names)).length
      = ((row k.backward t).filter (· ∉ wanted)).length := by
    rw [dependees_eq ht, List.filter_map, List.length_map]
    refine congrArg List.length (List.filter_congr ?_)
    intro s hs
    exact decide_eq_decide.mpr (not_congr (hwanted.mem_iff hk (hk.flip.target_lt hs)))
  have hentered := congrArg List.length (hwanted.map_filter_not_mem hk ht)
  rw [List.length_map] at hentered
  rw [← hgrown.dependees h node, hout.size, hdropped, ← hentered, hgrown.size]

/-- A name depends on the new dependees, and no other pair changes. -/
theorem mem_dependents_replaceDependees (h : Valid g) (node : String) (names : List String)
    (x y : String) :
    y ∈ (g.replaceDependees node names).dependents x
      ↔ if y = node then x ∈ names else y ∈ g.dependents x := by
  rw [dependents_replaceDependees h]
  by_cases hy : y = node
  · subst hy
    by_cases hx : x ∈ names
    · simp [hx, mem_placed]
    · simp [hx, (h.nodup_dependents x).mem_erase_iff]
  · by_cases hx : x ∈ names
    · simp [hx, hy, mem_placed]
    · simp [hx, hy, (h.nodup_dependents x).mem_erase_iff]

end Worksheet.Graph
