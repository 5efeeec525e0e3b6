import Worksheet.Proofs.Graph.Exchange

/-!
# Restoring the dependees of a name

A snapshot of a name, taken before its dependees are replaced, undoes the replacement: what is left
of it is that some names have been seen.

* `rewired_restore`: what restoring makes of a graph in which other pairs are as they were.
* `grown_restore`: restoring undoes all changes to the pairs that end at the name.
* `restore_replaceDependees`: the graph after a replacement has been undone.
-/

namespace Worksheet.Graph

variable {g g' : Graph} {node : String} {t : Nat}

/-! ### Rows

`restore` works on the rows in two loops: it takes the node out of the rows of its new dependees,
and puts the rows of its old ones back. Each loop is described here by what it makes of every row.
-/

/-- Tables of rows are equal if they are as long and have the same rows. -/
theorem rows_ext {rows rows' : List (List Nat)} (hlength : rows.length = rows'.length)
    (h : ∀ s, row rows s = row rows' s) : rows = rows' := by
  refine List.ext_getElem hlength ?_
  intro s hs hs'
  have := h s
  rwa [row, row, List.getD_eq_getElem _ _ hs, List.getD_eq_getElem _ _ hs'] at this

/-- A slot is taken out of some rows, one after the other. -/
theorem row_foldl_erase (added : List Nat) (t : Nat) (rows : List (List Nat)) (x : Nat)
    (hnodup : added.Nodup) :
    row (added.foldl (fun rows s => rows.modify s (·.erase t)) rows) x
      = if x ∈ added then (row rows x).erase t else row rows x := by
  induction added generalizing rows with
  | nil => rfl
  | cons s added ih =>
    obtain ⟨hs, hnodup⟩ := List.nodup_cons.mp hnodup
    rw [List.foldl_cons, ih _ hnodup, row_modify_erase]
    by_cases hx : x = s
    · simp [hx, hs]
    · simp [hx]

theorem length_foldl_erase (added : List Nat) (t : Nat) (rows : List (List Nat)) :
    (added.foldl (fun rows s => rows.modify s (·.erase t)) rows).length = rows.length := by
  induction added generalizing rows with
  | nil => rfl
  | cons s added ih => rw [List.foldl_cons, ih, List.length_modify]

/-- Rows that are put back one after the other. -/
theorem row_foldl_set (f : Nat → List Nat) (slots : List Nat) (rows : List (List Nat)) (x : Nat)
    (hslots : ∀ s ∈ slots, s < rows.length) :
    row ((slots.map fun s => (s, f s)).foldl (fun rows (s, targets) => rows.set s targets) rows) x
      = if x ∈ slots then f x else row rows x := by
  induction slots generalizing rows with
  | nil => rfl
  | cons s slots ih =>
    rw [List.map_cons, List.foldl_cons, ih _ fun y hy => ?_]
    · rw [row_set _ _ (hslots s List.mem_cons_self)]
      by_cases hx : x = s
      · simp [hx]
      · simp [hx]
    · rw [List.length_set]
      exact hslots y (List.mem_cons_of_mem _ hy)

theorem length_foldl_set (dependents : List (Nat × List Nat)) (rows : List (List Nat)) :
    (dependents.foldl (fun rows (s, targets) => rows.set s targets) rows).length
      = rows.length := by
  induction dependents generalizing rows with
  | nil => rfl
  | cons e dependents ih => rw [List.foldl_cons, ih, List.length_set]

/-- Rows that differ at most in one slot. -/
theorem mem_iff_of_erase_eq {row row' : List Nat} {y : Nat} (h : row.erase t = row'.erase t)
    (hy : y ≠ t) : y ∈ row ↔ y ∈ row' := by
  rw [← List.mem_erase_of_ne hy, h, List.mem_erase_of_ne hy]

/-! ### Snapshots -/

/-- What a snapshot remembers, said of the slot that its node has by now. -/
theorem snapshot_eq (h : Valid g) (hnames : g.names <+: g'.names)
    (ht : g'.slot? node = some t) :
    g.snapshot node
      = ⟨node, row g.backward t, (row g.backward t).map fun s => (s, row g.forward s), g.size⟩ := by
  have hrow : ((g.slot? node).map (row g.backward)).getD [] = row g.backward t := by
    cases hnode : g.slot? node with
    | some t' =>
      have heq := slot?_of_names hnames hnode
      rw [ht] at heq
      rw [Option.some.inj heq]
      rfl
    | none =>
      -- The slot is new, and stands behind all rows that the old graph has.
      exact (row_eq_nil (h.length_backward ▸ le_slot_of_names hnames hnode ht)).symm
  rw [snapshot, hrow]

/-! ### Restoring -/

/-- What a graph is after a snapshot of `g` has been restored, if no pair but those that end at the
node of the snapshot has changed. -/
theorem rewired_restore (h : Valid g) (h' : Valid g') (hnames : g.names <+: g'.names)
    (ht : g'.slot? node = some t)
    (hothers : ∀ x y, y ≠ t → (y ∈ row g'.forward x ↔ y ∈ row g.forward x)) :
    Rewired g' t
      (fun x => if x ∈ row g.backward t then row g.forward x else (row g'.forward x).erase t)
      (row g.backward t) g.size (g'.restore (g.snapshot node)) := by
  have hintern : g'.intern node = (t, g') := by
    rw [intern, ht]
  have hslots : ∀ s ∈ row g.backward t, s < g'.forward.length := by
    intro s hs
    rw [h'.length_forward]
    exact Nat.lt_of_lt_of_le (h.source_lt ((h.mirror s t).mpr hs)) hnames.length_le
  have htlt : t < g'.backward.length := by
    rw [h'.length_backward]
    exact lt_of_slot? ht
  have hnodup : ((row g'.backward t).filter (· ∉ row g.backward t)).Nodup :=
    (h'.nodup_backward t).filter _
  rw [snapshot_eq h hnames ht, restore, hintern]
  dsimp only
  have hforward : ∀ x, row
      (((row g.backward t).map fun s => (s, row g.forward s)).foldl
        (fun rows (s, targets) => rows.set s targets)
        (((row g'.backward t).filter (· ∉ row g.backward t)).foldl
          (fun rows s => rows.modify s (·.erase t)) g'.forward)) x
      = if x ∈ row g.backward t then row g.forward x else (row g'.forward x).erase t := by
    intro x
    rw [row_foldl_set _ _ _ _ (by rwa [length_foldl_erase]), row_foldl_erase _ _ _ _ hnodup]
    by_cases hx : x ∈ row g.backward t
    · rw [if_pos hx, if_pos hx]
    by_cases hx' : x ∈ row g'.backward t
    · rw [if_neg hx, if_neg hx, if_pos (by simp [hx, hx'])]
    · rw [if_neg hx, if_neg hx, if_neg (by simp [hx']),
        List.erase_of_not_mem (mt (h'.mirror x t).mp hx')]
  have hbackward : ∀ y, row (g'.backward.set t (row g.backward t)) y
      = if y = t then row g.backward t else row g'.backward y := fun y => row_set _ y htlt
  refine ⟨⟨h'.nodup_names, ?_, ?_, ?_, ?_, ?_⟩, rfl, hforward, ?_, ?_, rfl⟩
  · rw [length_foldl_set, length_foldl_erase]
    exact h'.length_forward
  · rw [List.length_set]
    exact h'.length_backward
  · intro x y
    rw [hforward, hbackward]
    by_cases hy : y = t
    · subst hy
      rw [if_pos rfl]
      split
      · exact h.mirror x y
      · next hx => simp [hx, (h'.nodup_forward x).mem_erase_iff]
    · rw [if_neg hy, ← h'.mirror]
      split
      · exact (hothers x y hy).symm
      · exact List.mem_erase_of_ne hy
  · intro x
    rw [hforward]
    split
    · exact h.nodup_forward x
    · exact (h'.nodup_forward x).erase t
  · intro y
    rw [hbackward]
    split
    · exact h.nodup_backward t
    · exact h'.nodup_backward y
  · rw [hbackward, if_pos rfl]
  · intro y hy
    rw [hbackward, if_neg hy]

/-- Restoring undoes all changes to the pairs that end at the node of the snapshot: what is left of
them is that some names have been seen. -/
theorem grown_restore (h : Valid g) (h' : Valid g') (hnames : g.names <+: g'.names)
    (ht : g'.slot? node = some t)
    (hforward : ∀ x, (row g'.forward x).erase t = (row g.forward x).erase t)
    (hbackward : ∀ y, y ≠ t → row g'.backward y = row g.backward y) :
    Grown g (g'.restore (g.snapshot node)) := by
  have hout := rewired_restore h h' hnames ht fun x y hy => mem_iff_of_erase_eq (hforward x) hy
  refine ⟨hout.names ▸ hnames, ?_, ?_, hout.size⟩
  · intro x
    rw [hout.row_forward]
    split
    · rfl
    · -- A slot that was no dependee had no pair with `t`.
      next hx => rw [hforward, List.erase_of_not_mem (mt (h.mirror x t).mp hx)]
  · intro y
    by_cases hy : y = t
    · rw [hy, hout.row_backward_self]
    · rw [hout.row_backward_ne y hy, hbackward y hy]

/-- Graphs that have grown out of one graph are equal if they have seen the same names. -/
theorem Grown.eq {g₁ g₂ : Graph} (h₁ : Grown g g₁) (h₂ : Grown g g₂) (hg₁ : Valid g₁)
    (hg₂ : Valid g₂) (hnames : g₁.names = g₂.names) : g₁ = g₂ := by
  have hforward : g₁.forward = g₂.forward := by
    refine rows_ext ?_ fun s => (h₁.row_forward s).trans (h₂.row_forward s).symm
    rw [hg₁.length_forward, hg₂.length_forward, hnames]
  have hbackward : g₁.backward = g₂.backward := by
    refine rows_ext ?_ fun t => (h₁.row_backward t).trans (h₂.row_backward t).symm
    rw [hg₁.length_backward, hg₂.length_backward, hnames]
  have hsize := h₁.size.trans h₂.size.symm
  cases g₁
  cases g₂
  simp_all

/-- Once a replacement is undone, all that is left of it is that its names have been seen. -/
theorem restore_replaceDependees (h : Valid g) (node : String) (names : List String) :
    (g.replaceDependees node names).restore (g.snapshot node) = g.seen node names := by
  have hk := h.seen node names
  have hgrown := grown_seen g node names
  obtain ⟨t, wanted, ht, hwanted, heq⟩ := exists_exchange g node names
  have hout := hk.exchange (lt_of_slot? ht) hwanted.lt
  rw [← heq] at hout
  have hnames := hout.names ▸ hgrown.names
  have hforward : ∀ x, (row (g.replaceDependees node names).forward x).erase t
      = (row g.forward x).erase t := by
    intro x
    rw [hout.row_forward, ← hgrown.row_forward]
    split
    · unfold placed
      split
      · rfl
      · next hx => rw [List.erase_append_right _ hx, List.erase_of_not_mem hx]; simp
    · rw [((hk.nodup_forward x).erase t).erase_eq_filter, (hk.nodup_forward x).erase_eq_filter,
        List.filter_filter]
      simp
  have hbackward : ∀ y, y ≠ t → row (g.replaceDependees node names).backward y
      = row g.backward y := by
    intro y hy
    rw [hout.row_backward_ne y hy, hgrown.row_backward]
  have hslot := (hout.slot? node).trans ht
  have hrestored := rewired_restore h hout.valid hnames hslot fun x y hy =>
    mem_iff_of_erase_eq (hforward x) hy
  exact (grown_restore h hout.valid hnames hslot hforward hbackward).eq hgrown hrestored.valid hk
    (hrestored.names.trans hout.names)

/-! ### Graphs with the same views

A change makes the same of graphs that cannot be told apart, so that from then on they stay so.
-/

/-- Two graphs that no one can tell apart: both views list the same names in the same order, and
there are as many pairs. -/
structure Same (g g' : Graph) : Prop where
  dependents : ∀ a, g.dependents a = g'.dependents a
  dependees : ∀ a, g.dependees a = g'.dependees a
  size : g.size = g'.size

namespace Same

theorem refl (g : Graph) : Same g g := ⟨fun _ => rfl, fun _ => rfl, rfl⟩

theorem symm (h : Same g g') : Same g' g :=
  ⟨fun a => (h.dependents a).symm, fun a => (h.dependees a).symm, h.size.symm⟩

/-- What cannot be told apart from a third cannot be told apart. -/
theorem trans {g'' : Graph} (h : Same g g') (h' : Same g' g'') : Same g g'' :=
  ⟨fun a => (h.dependents a).trans (h'.dependents a),
    fun a => (h.dependees a).trans (h'.dependees a), h.size.trans h'.size⟩

/-- What a replacement shows depends on what was shown before it, and on nothing else. -/
theorem replaceDependees (h : Same g g') (hg : Valid g) (hg' : Valid g') (node : String)
    (names : List String) :
    Same (g.replaceDependees node names) (g'.replaceDependees node names) where
  dependents a := by
    rw [dependents_replaceDependees hg, dependents_replaceDependees hg', h.dependents]
  dependees a := by
    rw [dependees_replaceDependees hg, dependees_replaceDependees hg', h.dependees, h.dependees]
  size := by
    rw [size_replaceDependees hg, size_replaceDependees hg', h.size, h.dependees]

/-- To replace the dependees of a name by the same names changes nothing that can be told. -/
theorem of_replaceDependees (h : Valid g) {names : List String}
    (hnames : ∀ a, a ∈ names ↔ a ∈ g.dependees node) : Same (g.replaceDependees node names) g := by
  have hkept : (g.dependees node).filter (· ∈ names) = g.dependees node :=
    List.filter_eq_self.mpr fun a ha => decide_eq_true ((hnames a).mpr ha)
  have hdropped : (g.dependees node).filter (· ∉ names) = [] :=
    List.filter_eq_nil_iff.mpr fun a ha => by simpa using (hnames a).mpr ha
  have hentered : names.eraseDups.filter (· ∉ g.dependees node) = [] :=
    List.filter_eq_nil_iff.mpr fun a ha => by simpa using (hnames a).mp (List.mem_eraseDups.mp ha)
  refine ⟨?_, ?_, ?_⟩
  · intro a
    have hmirror : a ∈ names ↔ node ∈ g.dependents a := (hnames a).trans h.mem_dependees
    rw [dependents_replaceDependees h]
    split
    · next ha => exact if_pos (hmirror.mp ha)
    · next ha => exact List.erase_of_not_mem (mt hmirror.mpr ha)
  · intro b
    rw [dependees_replaceDependees h, hkept, hentered, List.append_nil]
    split
    · next hb => rw [hb]
    · rfl
  · rw [size_replaceDependees h, hdropped, hentered]
    rfl

/-- Recalculation follows the dependents and nothing else of a graph. -/
theorem order (h : Same g g') (hg : Valid g) (hg' : Valid g') (starts : List String) :
    g.order starts = g'.order starts := by
  refine Recalculation.order_congr ?_ starts
  rw [hg.following_eq, hg'.following_eq]
  exact funext h.dependents

end Same

/-- Names that have merely been seen cannot be told. -/
theorem Grown.same (h : Grown g g') (hg : Valid g) : Same g' g :=
  ⟨h.dependents hg, h.dependees hg, h.size⟩

end Worksheet.Graph
