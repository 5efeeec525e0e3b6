import Worksheet.Proofs.Graph.Changes

/-!
# What a graph shows, in order

All that can be seen of a graph: the rows of both views, in order, and the number of pairs. Names
that have merely been seen, and the slots that they have, do not show. Each change to a graph is a
change to what it shows.

* `views_add`, `views_remove`, `views_replaceDependees`, `views_replaceDependents`,
  `views_restore`: what a graph shows after a change.
* `Views.Replaced`: what replacing the dependees of a name leaves in its order.
* `Reached.replaced_in_order`: every replacement does.
-/

namespace Worksheet.Graph

variable {g g' : Graph} {a b node : String} {s t : Nat}

/-! ### Views

A change to a graph is said here without slots, as a function of the rows of names before it. The
functions are the ones that the graph is held to: that it follows them is what the lemmas below
prove.
-/

/-- The rows of both views, in order, and the number of pairs. -/
@[ext]
structure Views where
  dependents : String → List String
  dependees : String → List String
  size : Nat

/-- What a graph shows. -/
def views (g : Graph) : Views := ⟨g.dependents, g.dependees, g.size⟩

@[simp] theorem dependents_views (g : Graph) : g.views.dependents = g.dependents := rfl

@[simp] theorem dependees_views (g : Graph) : g.views.dependees = g.dependees := rfl

@[simp] theorem size_views (g : Graph) : g.views.size = g.size := rfl

namespace Views

/-- What the graph shows when every pair is turned round. -/
def flip (v : Views) : Views := ⟨v.dependees, v.dependents, v.size⟩

/-- The pairs that are shown. -/
def pairs (v : Views) : Set (String × String) := {p | p.2 ∈ v.dependents p.1}

/-- A pair that is missing comes last in its rows. -/
def add (v : Views) (a b : String) : Views where
  dependents x := if x = a then placed (v.dependents x) b else v.dependents x
  dependees y := if y = b then placed (v.dependees y) a else v.dependees y
  size := if b ∈ v.dependents a then v.size else v.size + 1

/-- A pair that is there is taken out of both its rows. -/
def remove (v : Views) (a b : String) : Views where
  dependents x := if x = a then (v.dependents x).erase b else v.dependents x
  dependees y := if y = b then (v.dependees y).erase a else v.dependees y
  size := if b ∈ v.dependents a then v.size - 1 else v.size

/-- The names that stay keep their places in the row of the node, and the others come behind; the
node stays in the rows of the first and comes last in those of the others. -/
def replaceDependees (v : Views) (node : String) (names : List String) : Views where
  dependents x :=
    if x ∈ names then placed (v.dependents x) node else (v.dependents x).erase node
  dependees y :=
    if y = node then (v.dependees node).filter (· ∈ names)
      ++ names.eraseDups.filter (· ∉ v.dependees node)
    else v.dependees y
  size := v.size - ((v.dependees node).filter (· ∉ names)).length
    + (names.eraseDups.filter (· ∉ v.dependees node)).length

/-- The same with every pair turned round. -/
def replaceDependents (v : Views) (node : String) (names : List String) : Views :=
  (v.flip.replaceDependees node names).flip

/-- The pairs that end at a node are put back as they were; all others stay as they are. -/
def restore (v : Views) (node : String) (old : Views) : Views where
  dependents x :=
    if x ∈ old.dependees node then old.dependents x else (v.dependents x).erase node
  dependees y := if y = node then old.dependees node else v.dependees y
  size := old.size

end Views

/-- A graph that has seen more names shows nothing else. -/
theorem views_of_grown (h : Grown g g') (hg : Valid g) : g'.views = g.views :=
  Views.ext (funext (h.dependents hg)) (funext (h.dependees hg)) h.size

/-- Graphs that show the same cannot be told apart. -/
theorem same_of_views (h : g.views = g'.views) : Same g g' where
  dependents := congrFun (congrArg Views.dependents h)
  dependees := congrFun (congrArg Views.dependees h)
  size := congrArg Views.size h

/-! ### One pair

Both rows of a pair are rewritten at once. The row of dependents is read off the graph, that of
dependees off the graph turned round.
-/

namespace Valid

/-- `link` puts each name last in the row of the other. -/
theorem views_link (h : Valid g) (ha : g.slot? a = some s) (hb : g.slot? b = some t) :
    (g.link s t).views = g.views.add a b := by
  have hdependees := h.flip.dependents_link hb ha
  rw [← flip_link h] at hdependees
  refine Views.ext (funext (h.dependents_link ha hb)) (funext hdependees) ?_
  show (g.link s t).size = if b ∈ g.dependents a then g.size else g.size + 1
  simp only [size_link, h.mem_dependents_iff ha hb]

/-- `unlink` takes each name out of the row of the other. -/
theorem views_unlink (h : Valid g) (ha : g.slot? a = some s) (hb : g.slot? b = some t) :
    (g.unlink s t).views = g.views.remove a b := by
  have hdependees := h.flip.dependents_unlink hb ha
  rw [← flip_unlink h] at hdependees
  refine Views.ext (funext (h.dependents_unlink ha hb)) (funext hdependees) ?_
  show (g.unlink s t).size = if b ∈ g.dependents a then g.size - 1 else g.size
  simp only [size_unlink, h.mem_dependents_iff ha hb]

/-- What a graph shows after a pair is entered. -/
theorem views_add (h : Valid g) (a b : String) : (g.add a b).views = g.views.add a b := by
  obtain ⟨s, t, ha, hb, heq⟩ := exists_link g a b
  rw [heq, (h.seen a [b]).views_link ha hb, views_of_grown (grown_seen g a [b]) h]

theorem views_remove (h : Valid g) (a b : String) : (g.remove a b).views = g.views.remove a b := by
  unfold Graph.remove
  split
  · next s t ha hb => exact h.views_unlink ha hb
  · next hnone =>
    -- A name that has not been seen is in no pair.
    have hab : b ∉ g.dependents a := by
      intro hb
      obtain ⟨s, t, ha, hb, -⟩ := h.slots_of_mem_dependents hb
      exact hnone s t ha hb
    have hba : a ∉ g.dependees b := mt h.mem_dependees.mp hab
    refine Views.ext ?_ ?_ (if_neg hab).symm
    · funext x
      show g.dependents x = if x = a then (g.dependents x).erase b else g.dependents x
      split
      · next hx => rw [hx, List.erase_of_not_mem hab]
      · rfl
    · funext y
      show g.dependees y = if y = b then (g.dependees y).erase a else g.dependees y
      split
      · next hy => rw [hy, List.erase_of_not_mem hba]
      · rfl

/-! ### The pairs of a name -/

/-- What a graph shows after the dependees of a name are replaced. -/
theorem views_replaceDependees (h : Valid g) (node : String) (names : List String) :
    (g.replaceDependees node names).views = g.views.replaceDependees node names :=
  Views.ext (funext (dependents_replaceDependees h node names))
    (funext (dependees_replaceDependees h node names)) (size_replaceDependees h node names)

/-- What a graph shows after the dependents of a name are replaced, by turning it round. -/
theorem views_replaceDependents (h : Valid g) (node : String) (names : List String) :
    (g.replaceDependents node names).views = g.views.replaceDependents node names := by
  have hturned := congrArg Views.flip (h.flip.views_replaceDependees node names)
  rwa [← flip_replaceDependents h] at hturned

/-- A snapshot of `g` puts the pairs that end at its node back as `g` shows them, if no others have
changed. -/
theorem views_restore (h : Valid g) (h' : Valid g') (hnames : g.names <+: g'.names)
    (hothers : ∀ p : String × String, p.2 ≠ node → (p ∈ g'.pairs ↔ p ∈ g.pairs)) :
    (g'.restore (g.snapshot node)).views = g'.views.restore node g.views := by
  obtain ⟨k, t, hgrown, hk, ht, -, hout⟩ := exists_restored h h' hnames hothers
  replace hnames := hnames.trans hgrown.names
  rw [← views_of_grown hgrown h']
  generalize g'.restore (g.snapshot node) = out at hout
  refine Views.ext ?_ ?_ hout.size
  · funext x
    show out.dependents x
      = if x ∈ g.dependees node then g.dependents x else (k.dependents x).erase node
    cases hx : k.slot? x with
    | none =>
      rw [dependents_eq_nil ((hout.slot? x).trans hx), dependents_eq_nil hx,
        dependents_eq_nil (slot?_eq_none_of_names hnames hx), List.erase_nil, ite_self]
    | some s =>
      have hmem : s ∈ row g.backward t ↔ x ∈ g.dependees node := by
        rw [← h.mirror, ← mem_slotPairs, h.mem_slotPairs_of_names hnames hx ht, h.mem_dependees,
          mem_pairs]
      rw [dependents_eq ((hout.slot? x).trans hx), hout.row_forward, hout.nameAt]
      by_cases hs : s ∈ row g.backward t
      · rw [if_pos hs, if_pos (hmem.mp hs), h.dependents_of_names hnames hx]
      · rw [if_neg hs, if_neg (mt hmem.mpr hs), dependents_eq hx,
          map_erase_of_inj (hk.eq_of_nameAt_eq (lt_of_slot? ht)), nameAt_of_slot? ht]
  · funext y
    show out.dependees y = if y = node then g.dependees node else k.dependees y
    by_cases hy : y = node
    · rw [if_pos hy, hy, hout.dependees_self ht]
      exact (h.flip.dependents_of_names hnames ht).symm
    · rw [if_neg hy, hout.dependees_ne ht hy]

end Valid

/-! ### Replacements in order -/

/-- What becomes of `v` when the dependees of a node are replaced by the given names. -/
structure Views.Replaced (node : String) (names : List String) (v w : Views) : Prop where
  /-- The dependees that stay keep their order, and the others come behind them, in the order in
  which they are first given. -/
  row : w.dependees node = (v.dependees node).filter (· ∈ names)
    ++ names.eraseDups.filter (· ∉ v.dependees node)
  rows : ∀ y, y ≠ node → w.dependees y = v.dependees y
  /-- A name that was a dependee and stays one, or was none and becomes none, has the same
  dependents, -/
  unmoved : ∀ s, (s ∈ v.dependees node ↔ s ∈ names) → w.dependents s = v.dependents s
  /-- a name that is dropped loses the node, -/
  dropped : ∀ s ∈ v.dependees node, s ∉ names → w.dependents s = (v.dependents s).erase node
  /-- and a name that is new has it last. -/
  entered : ∀ s ∈ names, s ∉ v.dependees node → w.dependents s = v.dependents s ++ [node]
  size : w.size + ((v.dependees node).filter (· ∉ names)).length
    = v.size + (names.eraseDups.filter (· ∉ v.dependees node)).length

/-- The pairs that end at a node are no more than all pairs. -/
theorem Counted.length_dependees_le (h : Counted g) (node : String) :
    (g.dependees node).length ≤ g.size := by
  have hsubset : (fun a => (a, node)) '' {a | a ∈ g.dependees node} ⊆ g.pairs := by
    rintro - ⟨a, ha, rfl⟩
    exact h.valid.mem_dependees.mp ha
  have hcard : {a | a ∈ g.dependees node}.encard = (g.dependees node).length := by
    rw [← List.toFinset_card_of_nodup (h.valid.nodup_dependees node),
      ← Set.encard_coe_eq_coe_finsetCard, List.coe_toFinset]
  have hle := Set.encard_le_encard hsubset
  rw [(Prod.mk_left_injective node).encard_image, hcard, h.encard_pairs] at hle
  exact_mod_cast hle

/-- Replacing the dependees of a name moves nothing that stays, on either side of a pair. -/
theorem Counted.replaced (h : Counted g) (node : String) (names : List String) :
    g.views.Replaced node names (g.replaceDependees node names).views := by
  have hviews := h.valid.views_replaceDependees node names
  have hmirror : ∀ {s}, node ∈ g.dependents s ↔ s ∈ g.dependees node := h.valid.mem_dependees.symm
  rw [hviews]
  refine ⟨if_pos rfl, fun y hy => if_neg hy, ?_, ?_, ?_, ?_⟩
  · intro s hs
    by_cases hwanted : s ∈ names
    · exact (if_pos hwanted).trans (if_pos (hmirror.mpr (hs.mpr hwanted)))
    · exact (if_neg hwanted).trans (List.erase_of_not_mem (mt hmirror.mp (mt hs.mp hwanted)))
  · intro s _ hwanted
    exact if_neg hwanted
  · intro s hwanted hs
    exact (if_pos hwanted).trans (if_neg (mt hmirror.mp hs))
  · have hle := (List.length_filter_le (· ∉ names) (g.dependees node)).trans
      (h.length_dependees_le node)
    simp only [Views.replaceDependees, dependees_views, size_views] at hle ⊢
    omega

/-- A session that has come from the start by changes each of which might be made, beside the set
that the same changes make. -/
def Reached (session : Session) (outline : Outline) : Prop :=
  ∃ changes, Outline.empty.PermitsAll changes
    ∧ Session.empty.run changes = session ∧ Outline.empty.run changes = outline

/-- Any permitted changes reach a session. -/
theorem reached_run (changes : List Change) (h : Outline.empty.PermitsAll changes) :
    Reached (Session.empty.run changes) (Outline.empty.run changes) :=
  ⟨changes, h, rfl, rfl⟩

namespace Reached

variable {session : Session} {outline : Outline}

/-- A session that has been reached keeps up with its set. -/
theorem tracks (h : Reached session outline) : Tracks session outline := by
  obtain ⟨changes, hpermits, rfl, rfl⟩ := h
  exact tracks_empty.run hpermits

/-- Whatever changes a graph has gone through, replacing the dependees of a name keeps the order of
all that stays, and replacing the dependents does so with the graph turned round. -/
theorem replaced_in_order (h : Reached session outline) (node : String) (names : List String) :
    session.graph.views.Replaced node names (session.graph.replaceDependees node names).views
    ∧ session.graph.views.flip.Replaced node names
        (session.graph.replaceDependents node names).views.flip := by
  have hcounted := h.tracks.counted
  refine ⟨hcounted.replaced node names, ?_⟩
  have hturned := hcounted.flip.replaced node names
  rwa [← flip_replaceDependents hcounted.valid] at hturned

/-- A name that depends on itself: one dependee goes, two stay, and a new one is given twice. -/
theorem replaced_in_order_loop :
    ∃ session outline, Reached session outline
      ∧ session.graph.dependees "B" = ["A", "B", "C"]
      ∧ (session.graph.replaceDependees "B" ["D", "C", "D", "B"]).dependees "B" = ["B", "C", "D"]
      ∧ (session.graph.replaceDependees "B" ["D", "C", "D", "B"]).dependents "A" = ["A"] := by
  have h := reached_run [.add "A" "B", .add "B" "B", .add "C" "B", .add "A" "A"]
    ⟨trivial, trivial, trivial, trivial, trivial⟩
  have hold : (Session.empty.run [.add "A" "B", .add "B" "B", .add "C" "B",
      .add "A" "A"]).graph.dependees "B" = ["A", "B", "C"] := by decide
  have hdropped : (Session.empty.run [.add "A" "B", .add "B" "B", .add "C" "B",
      .add "A" "A"]).graph.dependents "A" = ["B", "A"] := by decide
  obtain ⟨hreplaced, -⟩ := replaced_in_order h "B" ["D", "C", "D", "B"]
  refine ⟨_, _, h, hold, ?_, ?_⟩
  · refine hreplaced.row.trans ?_
    rw [dependees_views, hold]
    decide
  · refine (hreplaced.dropped "A" ?_ (by decide)).trans ?_
    · rw [dependees_views, hold]
      decide
    · rw [dependents_views, hdropped]
      decide

end Reached

end Worksheet.Graph
