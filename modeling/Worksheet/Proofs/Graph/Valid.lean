import Worksheet.Graph
import Worksheet.Proofs.Recalculation

/-!
# Slots and rows of a graph

What holds of the slots and rows of every graph that is built from the empty one, and what does not
change in a graph that has merely seen more names.

* `Valid`: names have one slot each, and the two views hold the same pairs.
* `Valid.order_ok`, `Valid.exists_order`: what an order of recalculation is, and when there is one.
* `Grown`: a graph that has only seen more names; `Grown.dependents`: that shows in no view.
-/

namespace Worksheet.Graph

open Relation (ReflTransGen TransGen)
open Worksheet.Recalculation (Leads LeadsOff Settled)

/-! ### Rows

A slot without a row of its own has the empty row, so that rows can be read and compared at every
slot.
-/

theorem lt_of_mem_row {rows : List (List Nat)} {s t : Nat} (h : t ∈ row rows s) :
    s < rows.length := by
  by_contra hs
  rw [row, List.getD_eq_default _ _ (Nat.le_of_not_lt hs)] at h
  cases h

theorem row_eq_nil {rows : List (List Nat)} {s : Nat} (h : rows.length ≤ s) : row rows s = [] :=
  List.getD_eq_default _ _ h

/-- The row of a new slot is empty, as it was before the slot was given away. -/
@[simp] theorem row_append_nil (rows : List (List Nat)) (s : Nat) :
    row (rows ++ [[]]) s = row rows s := by
  by_cases hs : s < rows.length
  · rw [row, row, List.getD_append _ _ _ _ hs]
  · rw [row_eq_nil (Nat.le_of_not_lt hs), row, List.getD_append_right _ _ _ _ (Nat.le_of_not_lt hs)]
    cases s - rows.length <;> rfl

theorem row_modify_self {rows : List (List Nat)} {s : Nat} (f : List Nat → List Nat)
    (h : s < rows.length) : row (rows.modify s f) s = f (row rows s) := by
  simp [row, List.getD_eq_getElem?_getD, h]

theorem row_modify_ne {rows : List (List Nat)} {s x : Nat} (f : List Nat → List Nat)
    (h : x ≠ s) : row (rows.modify s f) x = row rows x := by
  simp [row, List.getD_eq_getElem?_getD, Ne.symm h]

/-- All rows after one of them loses a slot. -/
theorem row_modify_erase (rows : List (List Nat)) (s t x : Nat) :
    row (rows.modify s (·.erase t)) x = if x = s then (row rows x).erase t else row rows x := by
  by_cases hx : x = s
  · subst hx
    rw [if_pos rfl]
    by_cases hlt : x < rows.length
    · rw [row_modify_self _ hlt]
    · have hle := Nat.le_of_not_lt hlt
      rw [row_eq_nil hle, row_eq_nil (by rwa [List.length_modify])]
      rfl
  · rw [if_neg hx, row_modify_ne _ hx]

theorem row_set {rows : List (List Nat)} {s : Nat} (targets : List Nat) (x : Nat)
    (h : s < rows.length) :
    row (rows.set s targets) x = if x = s then targets else row rows x := by
  by_cases hx : x = s
  · subst hx
    simp [row, List.getD_eq_getElem?_getD, h]
  · simp [row, List.getD_eq_getElem?_getD, hx, Ne.symm hx]

/-! ### Slots -/

variable {g g' : Graph} {a b : String} {s t : Nat}

/-- The names without a slot are those that have not been seen. -/
theorem slot?_eq_none_iff : g.slot? a = none ↔ a ∉ g.names := List.idxOf?_eq_none_iff

theorem lt_of_slot? (h : g.slot? a = some s) : s < g.names.length :=
  (List.idxOf?_eq_some_iff.mp h).1

theorem nameAt_of_slot? (h : g.slot? a = some s) : g.nameAt s = a := by
  obtain ⟨hs, ha, -⟩ := List.idxOf?_eq_some_iff.mp h
  rw [nameAt, List.getD_eq_getElem _ _ hs, ha]

/-- No two names share a slot. -/
theorem slot?_inj (ha : g.slot? a = some s) (hb : g.slot? b = some s) : a = b := by
  rw [← nameAt_of_slot? ha, nameAt_of_slot? hb]

/-- Where names do not repeat, the name of a slot has that slot. -/
theorem slot?_nameAt (h : g.names.Nodup) (hs : s < g.names.length) :
    g.slot? (g.nameAt s) = some s := by
  rw [nameAt, List.getD_eq_getElem _ _ hs, slot?, List.idxOf?_eq_some_iff]
  refine ⟨hs, rfl, ?_⟩
  intro j hj heq
  have := (List.Nodup.getElem_inj_iff h).mp heq
  omega

/-! ### More names

Names are only ever added behind those that have been seen. A slot that a name has is its slot from
then on.
-/

theorem slot?_congr (h : g'.names = g.names) : g'.slot? = g.slot? := by
  funext a
  rw [slot?, slot?, h]

theorem nameAt_congr (h : g'.names = g.names) : g'.nameAt = g.nameAt := by
  funext s
  rw [nameAt, nameAt, h]

theorem nameAt_of_names (h : g.names <+: g'.names) (hs : s < g.names.length) :
    g'.nameAt s = g.nameAt s := by
  obtain ⟨more, hmore⟩ := h
  rw [nameAt, nameAt, ← hmore, List.getD_append _ _ _ _ hs]

/-- Names keep their slots when others are seen. -/
theorem slot?_of_names (h : g.names <+: g'.names) (ha : g.slot? a = some s) :
    g'.slot? a = some s := by
  obtain ⟨more, hmore⟩ := h
  obtain ⟨hs, hname, hfirst⟩ := List.idxOf?_eq_some_iff.mp ha
  rw [slot?, ← hmore, List.idxOf?_eq_some_iff]
  refine ⟨by rw [List.length_append]; omega, by rw [List.getElem_append_left hs, hname], ?_⟩
  intro j hj
  rw [List.getElem_append_left (Nat.lt_trans hj hs)]
  exact hfirst j hj

/-- A name without a slot had none before others were seen. -/
theorem slot?_eq_none_of_names (h : g.names <+: g'.names) (ha : g'.slot? a = none) :
    g.slot? a = none := by
  rw [slot?_eq_none_iff] at ha ⊢
  exact fun hmem => ha (h.subset hmem)

/-- A name that is new has a slot behind all that were there. -/
theorem le_slot_of_names (h : g.names <+: g'.names) (ha : g.slot? a = none)
    (ha' : g'.slot? a = some s) : g.names.length ≤ s := by
  -- A smaller slot would have carried the name before.
  by_contra hs
  have hname := nameAt_of_names h (Nat.lt_of_not_le hs)
  rw [nameAt_of_slot? ha'] at hname
  refine slot?_eq_none_iff.mp ha ?_
  rw [hname, nameAt, List.getD_eq_getElem _ _ (Nat.lt_of_not_le hs)]
  exact List.getElem_mem _

/-! ### Views by slots

What the views list for a name is the row of its slot, and nothing for a name that has not been
seen.
-/

/-- The dependents of a name are the names in the row of its slot. -/
theorem dependents_eq (h : g.slot? a = some s) :
    g.dependents a = (row g.forward s).map g.nameAt := by
  rw [dependents, h]

theorem dependents_eq_nil (h : g.slot? a = none) : g.dependents a = [] := by
  rw [dependents, h]

theorem dependees_eq (h : g.slot? b = some t) :
    g.dependees b = (row g.backward t).map g.nameAt := by
  rw [dependees, h]

theorem dependees_eq_nil (h : g.slot? b = none) : g.dependees b = [] := by
  rw [dependees, h]

/-! ### Validity

The invariant of the representation: each slot has a row in both views, the views mirror each other,
and no row repeats a slot.
-/

/-- Each name has one slot and each slot two rows; a slot stands in the row of another at most once,
and only if the other stands in its own row of the other view. -/
structure Valid (g : Graph) : Prop where
  nodup_names : g.names.Nodup
  length_forward : g.forward.length = g.names.length
  length_backward : g.backward.length = g.names.length
  mirror : ∀ s t, t ∈ row g.forward s ↔ s ∈ row g.backward t
  nodup_forward : ∀ s, (row g.forward s).Nodup
  nodup_backward : ∀ t, (row g.backward t).Nodup

theorem valid_empty : Valid empty := by
  refine ⟨List.nodup_nil, rfl, rfl, ?_, ?_, ?_⟩ <;> simp [empty, row]

/-- The graph with every pair turned round. -/
def flip (g : Graph) : Graph := { g with forward := g.backward, backward := g.forward }

/-- The invariant does not tell the views apart. -/
theorem Valid.flip (h : Valid g) : Valid g.flip where
  nodup_names := h.nodup_names
  length_forward := h.length_backward
  length_backward := h.length_forward
  mirror s t := (h.mirror t s).symm
  nodup_forward := h.nodup_backward
  nodup_backward := h.nodup_forward

namespace Valid

/-- A pair begins at a slot that a name has. -/
theorem source_lt (h : Valid g) (ht : t ∈ row g.forward s) : s < g.names.length :=
  h.length_forward ▸ lt_of_mem_row ht

/-- It also ends at one, because the other view has the pair too. -/
theorem target_lt (h : Valid g) (ht : t ∈ row g.forward s) : t < g.names.length :=
  h.length_backward ▸ lt_of_mem_row ((h.mirror s t).mp ht)

/-- Different slots of a valid graph hold different names. -/
theorem nameAt_inj (h : Valid g) (hs : s < g.names.length) (ht : t < g.names.length)
    (hst : g.nameAt s = g.nameAt t) : s = t := by
  have hslot := slot?_nameAt h.nodup_names hs
  rw [hst, slot?_nameAt h.nodup_names ht] at hslot
  exact (Option.some.inj hslot).symm

/-- No slot of a row but `t` itself holds the name in slot `t`. -/
theorem eq_of_nameAt_eq (h : Valid g) (ht : t < g.names.length) :
    ∀ y ∈ row g.forward s, g.nameAt y = g.nameAt t → y = t :=
  fun _ hy => h.nameAt_inj (h.target_lt hy) ht

/-- Names depend on each other as their slots do. -/
theorem mem_dependents_iff (h : Valid g) (ha : g.slot? a = some s) (hb : g.slot? b = some t) :
    b ∈ g.dependents a ↔ t ∈ row g.forward s := by
  rw [dependents_eq ha, List.mem_map]
  constructor
  · rintro ⟨t', ht', hname⟩
    have hlt := h.target_lt ht'
    rw [← nameAt_of_slot? hb] at hname
    exact h.nameAt_inj hlt (lt_of_slot? hb) hname ▸ ht'
  · intro ht
    exact ⟨t, ht, nameAt_of_slot? hb⟩

theorem mem_dependees_iff (h : Valid g) (ha : g.slot? a = some s) (hb : g.slot? b = some t) :
    a ∈ g.dependees b ↔ s ∈ row g.backward t :=
  h.flip.mem_dependents_iff hb ha

/-- A dependent has a slot, and so has what it depends on. -/
theorem slots_of_mem_dependents (h : Valid g) (hb : b ∈ g.dependents a) :
    ∃ s t, g.slot? a = some s ∧ g.slot? b = some t ∧ t ∈ row g.forward s := by
  cases ha : g.slot? a with
  | none =>
    rw [dependents_eq_nil ha] at hb
    cases hb
  | some s =>
    rw [dependents_eq ha, List.mem_map] at hb
    obtain ⟨t, ht, rfl⟩ := hb
    exact ⟨s, t, rfl, slot?_nameAt h.nodup_names (h.target_lt ht), ht⟩

/-- A name depends on another if the other has it as a dependent. -/
theorem mem_dependees (h : Valid g) : a ∈ g.dependees b ↔ b ∈ g.dependents a := by
  constructor
  · intro ha
    obtain ⟨t, s, hb, ha', hs⟩ := h.flip.slots_of_mem_dependents ha
    exact (h.mem_dependents_iff ha' hb).mpr ((h.mirror s t).mpr hs)
  · intro hb
    obtain ⟨s, t, ha, hb', ht⟩ := h.slots_of_mem_dependents hb
    exact (h.flip.mem_dependents_iff hb' ha).mpr ((h.mirror s t).mp ht)

/-- The dependents of a name, said of the slot that the name has by now. -/
theorem dependents_of_names (h : Valid g) (hnames : g.names <+: g'.names)
    (ha : g'.slot? a = some s) : g.dependents a = (row g.forward s).map g'.nameAt := by
  cases hslot : g.slot? a with
  | some s' =>
    cases ha.symm.trans (slot?_of_names hnames hslot)
    rw [dependents_eq hslot]
    exact List.map_congr_left fun t ht => (nameAt_of_names hnames (h.target_lt ht)).symm
  | none =>
    -- The slot stands behind all rows that the old graph has.
    rw [dependents_eq_nil hslot, row_eq_nil (h.length_forward ▸ le_slot_of_names hnames hslot ha)]
    rfl

theorem nodup_dependents (h : Valid g) (a : String) : (g.dependents a).Nodup := by
  cases ha : g.slot? a with
  | none =>
    rw [dependents_eq_nil ha]
    exact List.nodup_nil
  | some s =>
    rw [dependents_eq ha]
    refine List.Nodup.map_on ?_ (h.nodup_forward s)
    intro x hx y hy hxy
    exact h.nameAt_inj (h.target_lt hx) (h.target_lt hy) hxy

theorem nodup_dependees (h : Valid g) (a : String) : (g.dependees a).Nodup :=
  h.flip.nodup_dependents a

/-! ### Orders of recalculation

A graph hands its dependents to the search, with its names as the ones that may be met. In a valid
graph these are enough of them, so the results on the search hold without any condition.
-/

/-- Names that have not been seen have no dependents. -/
theorem following_eq (_ : Valid g) :
    Recalculation.following g.names g.dependents = g.dependents :=
  Recalculation.following_eq fun _ ha => dependents_eq_nil (slot?_eq_none_iff.mpr ha)

/-- An order has each name that the given ones lead to, once and before all that depend on it. -/
theorem order_ok (h : Valid g) {starts out : List String} (horder : g.order starts = .ok out) :
    Settled g.dependents out
      ∧ ∀ b, b ∈ out ↔ ∃ a ∈ starts, ReflTransGen (Leads g.dependents) a b := by
  have hout := Recalculation.order_ok horder
  rwa [h.following_eq] at hout

/-- A name that is refused leads back to itself. -/
theorem order_error (h : Valid g) {starts : List String} {c : String}
    (horder : g.order starts = .error c) : TransGen (Leads g.dependents) c c := by
  have hcycle := (Recalculation.order_error horder).1
  rwa [h.following_eq] at hcycle

/-- If all cycles lead through one name, then an order of it refuses no other. -/
theorem order_error_eq (h : Valid g) {n c : String}
    (hacyclic : ∀ a, ¬ TransGen (LeadsOff g.dependents n) a a) (horder : g.order [n] = .error c) :
    c = n := by
  rw [← h.following_eq] at hacyclic
  exact Recalculation.order_error_eq hacyclic horder

/-- Where nothing leads back to itself there is an order. -/
theorem exists_order (h : Valid g) (hacyclic : ∀ a, ¬ TransGen (Leads g.dependents) a a)
    (starts : List String) : ∃ out, g.order starts = .ok out := by
  cases horder : g.order starts with
  | ok out => exact ⟨out, rfl⟩
  | error c => exact absurd (h.order_error horder) (hacyclic c)

/-! ### Names that are seen for the first time

A graph grows when a name is given a slot: two empty rows are added, and nothing that was there
moves.
-/

/-- A new name leaves the graph valid. -/
theorem grow (h : Valid g) (ha : a ∉ g.names) : Valid (g.grow a) where
  nodup_names := by
    rw [Graph.grow, List.nodup_append]
    refine ⟨h.nodup_names, by simp, ?_⟩
    intro x hx y hy
    rw [List.mem_singleton] at hy
    rintro rfl
    exact ha (hy ▸ hx)
  length_forward := by simp [Graph.grow, h.length_forward]
  length_backward := by simp [Graph.grow, h.length_backward]
  mirror s t := by simpa [Graph.grow] using h.mirror s t
  nodup_forward s := by simpa [Graph.grow] using h.nodup_forward s
  nodup_backward t := by simpa [Graph.grow] using h.nodup_backward t

end Valid

/-- A graph that has seen some more names. -/
structure Grown (g g' : Graph) : Prop where
  names : g.names <+: g'.names
  row_forward : ∀ s, row g'.forward s = row g.forward s
  row_backward : ∀ t, row g'.backward t = row g.backward t
  size : g'.size = g.size

namespace Grown

theorem refl (g : Graph) : Grown g g :=
  ⟨List.prefix_refl _, fun _ => rfl, fun _ => rfl, rfl⟩

theorem trans {g'' : Graph} (h : Grown g g') (h' : Grown g' g'') : Grown g g'' where
  names := h.names.trans h'.names
  row_forward s := (h'.row_forward s).trans (h.row_forward s)
  row_backward t := (h'.row_backward t).trans (h.row_backward t)
  size := h'.size.trans h.size

theorem flip (h : Grown g g') : Grown g.flip g'.flip :=
  ⟨h.names, h.row_backward, h.row_forward, h.size⟩

/-- Names that are seen for the first time show in no view. -/
theorem dependents (h : Grown g g') (hg : Valid g) (x : String) :
    g'.dependents x = g.dependents x := by
  cases hx' : g'.slot? x with
  | some s => rw [dependents_eq hx', h.row_forward, hg.dependents_of_names h.names hx']
  | none => rw [dependents_eq_nil hx', dependents_eq_nil (slot?_eq_none_of_names h.names hx')]

theorem dependees (h : Grown g g') (hg : Valid g) (x : String) :
    g'.dependees x = g.dependees x :=
  h.flip.dependents hg.flip x

end Grown

/-! ### Interning

To intern a name is to find its slot or to grow by one. Either way the graph afterwards has a slot
for the name, and shows what it showed.
-/

/-- The rows of the new slot are empty in both views. -/
theorem grown_grow (g : Graph) (a : String) : Grown g (g.grow a) :=
  ⟨List.prefix_append _ _, row_append_nil _, row_append_nil _, rfl⟩

theorem slot?_grow_self (h : a ∉ g.names) : (g.grow a).slot? a = some g.names.length := by
  rw [slot?, List.idxOf?_eq_some_iff]
  refine ⟨by simp [grow], by simp [grow], ?_⟩
  intro j hj heq
  apply h
  rw [← heq]
  simp [grow, hj]

/-- A name that is interned changes nothing that shows. -/
theorem grown_intern (g : Graph) (a : String) : Grown g (g.intern a).2 := by
  unfold intern
  split
  · exact .refl g
  · exact grown_grow g a

theorem slot?_intern (g : Graph) (a : String) : (g.intern a).2.slot? a = some (g.intern a).1 := by
  unfold intern
  split
  · next ha => exact ha
  · next ha => exact slot?_grow_self (slot?_eq_none_iff.mp ha)

theorem Valid.intern (h : Valid g) (a : String) : Valid (g.intern a).2 := by
  unfold Graph.intern
  split
  · exact h
  · next ha => exact h.grow (slot?_eq_none_iff.mp ha)

theorem Valid.internAll (h : Valid g) (names : List String) : Valid (g.internAll names).2 := by
  induction names generalizing g with
  | nil => exact h
  | cons a names ih => exact ih (h.intern a)

theorem grown_internAll (g : Graph) (names : List String) : Grown g (g.internAll names).2 := by
  induction names generalizing g with
  | nil => exact .refl g
  | cons a names ih => exact (grown_intern g a).trans (ih (g.intern a).2)

/-- The slots of some names are listed in the order of the names. -/
theorem slots_internAll (g : Graph) (names : List String) :
    List.Forall₂ (fun a s => (g.internAll names).2.slot? a = some s) names
      (g.internAll names).1 := by
  induction names generalizing g with
  | nil => exact .nil
  | cons a names ih =>
    refine .cons ?_ (ih (g.intern a).2)
    exact slot?_of_names (grown_internAll (g.intern a).2 names).names (slot?_intern g a)

end Worksheet.Graph
