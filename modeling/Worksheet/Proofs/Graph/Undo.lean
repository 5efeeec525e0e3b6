import Worksheet.Proofs.Graph.Views

/-!
# Undoing changes to the pairs of a name

A snapshot of a name is taken, the pairs that end at the name are changed in whatever way, and the
snapshot is restored: then nothing that the graph shows, or will ever show, tells that anything has
happened.

* `Overview`: what a session shows; its slots and the names that it has seen do not.
* `Depicts.run`: the same changes have the same effect on both.
* `Confined`: the changes that can touch no pair but those that end at a name.
* `Reached.restore_exact`: restoring undoes any row of them.
-/

namespace Worksheet.Graph

variable {g g' : Graph} {node : String}

/-! ### What a session shows

An overview is a session without slots and without snapshots: for each snapshot it has what was
shown when it was taken. What a session shows later is computed from that alone.
-/

/-- What a graph shows, and what it showed at each of the snapshots. -/
structure Overview where
  views : Views
  taken : List (String × Views)

namespace Overview

/-- What is shown at the start. -/
def empty : Overview := ⟨Graph.empty.views, []⟩

/-- What a change makes of it. -/
def change (overview : Overview) : Change → Overview
  | .add a b => { overview with views := overview.views.add a b }
  | .remove a b => { overview with views := overview.views.remove a b }
  | .replaceDependents node names =>
    { overview with views := overview.views.replaceDependents node names }
  | .replaceDependees node names =>
    { overview with views := overview.views.replaceDependees node names }
  | .snapshot node => { overview with taken := overview.taken ++ [(node, overview.views)] }
  | .restore number =>
    match overview.taken[number]? with
    | some (node, old) => { overview with views := overview.views.restore node old }
    | none => overview

/-- Changes one after the other. -/
def run (overview : Overview) (changes : List Change) : Overview := changes.foldl change overview

/-- The pairs that are shown, without their order. -/
def outline (overview : Overview) : Outline :=
  ⟨overview.views.pairs, overview.taken.map fun e => (e.1, e.2.pairs)⟩

end Overview

/-- A snapshot that was taken when the graph showed the remembered views. -/
def Recalls (g : Graph) (saved : Snapshot) (entry : String × Views) : Prop :=
  ∃ g₀, saved = g₀.snapshot entry.1 ∧ Counted g₀ ∧ g₀.views = entry.2 ∧ g₀.names <+: g.names

/-- A session that shows what an overview says. -/
structure Depicts (session : Session) (overview : Overview) : Prop where
  counted : Counted session.graph
  views : session.graph.views = overview.views
  taken : List.Forall₂ (Recalls session.graph) session.taken overview.taken

/-- An empty session shows what is shown at the start. -/
theorem depicts_empty : Depicts .empty .empty := ⟨counted_empty, rfl, .nil⟩

namespace Depicts

variable {session : Session} {overview : Overview}

theorem tracks (h : Depicts session overview) : Tracks session overview.outline where
  counted := h.counted
  pairs := congrArg Views.pairs h.views
  taken := by
    refine List.forall₂_map_right_iff.mpr (h.taken.imp ?_)
    rintro saved entry ⟨g₀, hsaved, hcounted, hviews, hnames⟩
    exact ⟨g₀, hsaved, hcounted, congrArg Views.pairs hviews, hnames⟩

/-- The graph of the session is replaced by one that shows what the overview says then. -/
theorem with_graph (h : Depicts session overview) {v : Views} (hcounted : Counted g)
    (hviews : g.views = v) (hnames : session.graph.names <+: g.names) :
    Depicts { session with graph := g } { overview with views := v } where
  counted := hcounted
  views := hviews
  taken := h.taken.imp fun _ _ ⟨g₀, hsaved, hcounted, hviews, hseen⟩ =>
    ⟨g₀, hsaved, hcounted, hviews, hseen.trans hnames⟩

/-- A permitted restoration of a snapshot is the restoration of the views that were shown when it
was taken. -/
theorem restore (h : Depicts session overview) {number : Nat}
    (hpermits : overview.outline.Permits (.restore number)) :
    Depicts (session.change (.restore number)) (overview.change (.restore number)) := by
  obtain ⟨node, old, hentry, hothers⟩ := hpermits
  rw [Overview.outline, List.getElem?_map, Option.map_eq_some_iff] at hentry
  obtain ⟨⟨node', v⟩, hentry, heq⟩ := hentry
  cases heq
  obtain ⟨saved, hsaved, g₀, rfl, hcounted, rfl, hnames⟩ := exists_getElem? h.taken hentry
  rw [← h.tracks.pairs] at hothers
  rw [Session.change, Overview.change, hsaved, hentry]
  refine h.with_graph ?_ ?_ (names_restore _ _)
  · exact hcounted.of_agrees (agrees_restore hcounted.valid h.counted.valid hnames hothers)
  · rw [← h.views]
    exact hcounted.valid.views_restore h.counted.valid hnames hothers

/-- A change to a session has the same effect on what it shows. -/
theorem change (h : Depicts session overview) {change : Change}
    (hpermits : overview.outline.Permits change) :
    Depicts (session.change change) (overview.change change) := by
  have hvalid := h.counted.valid
  cases change with
  | add a b =>
    exact h.with_graph (h.counted.add a b) ((hvalid.views_add a b).trans (by rw [h.views]))
      (names_add _ a b)
  | remove a b =>
    refine h.with_graph (h.counted.remove a b)
      ((hvalid.views_remove a b).trans (by rw [h.views])) ?_
    rw [names_remove]
  | replaceDependents node names =>
    exact h.with_graph (h.counted.replaceDependents node names)
      ((hvalid.views_replaceDependents node names).trans (by rw [h.views]))
      (names_replaceDependents hvalid node names)
  | replaceDependees node names =>
    exact h.with_graph (h.counted.replaceDependees node names)
      ((hvalid.views_replaceDependees node names).trans (by rw [h.views]))
      (names_replaceDependees hvalid node names)
  | snapshot node =>
    refine ⟨h.counted, h.views, List.rel_append h.taken (.cons ?_ .nil)⟩
    exact ⟨session.graph, rfl, h.counted, h.views, List.prefix_refl _⟩
  | restore number => exact h.restore hpermits

/-- The set of pairs keeps up with what is shown. -/
theorem outline_change (h : Depicts session overview) {change : Change}
    (hpermits : overview.outline.Permits change) :
    (overview.change change).outline = overview.outline.change change := by
  have hpairs : (overview.change change).views.pairs = (overview.outline.change change).pairs := by
    rw [← (h.change hpermits).views]
    exact (h.tracks.change hpermits).pairs
  have htaken : (overview.change change).outline.taken
      = (overview.outline.change change).taken := by
    cases change with
    | snapshot node => simp [Overview.outline, Overview.change, Outline.change]
    | restore number =>
      simp only [Overview.outline, Overview.change, Outline.change, List.getElem?_map]
      cases overview.taken[number]? <;> rfl
    | _ => rfl
  exact congrArg₂ Outline.mk hpairs htaken

/-- A row of changes has the same effect on both, too. -/
theorem run (h : Depicts session overview) {changes : List Change}
    (hpermits : overview.outline.PermitsAll changes) :
    Depicts (session.run changes) (overview.run changes)
      ∧ (overview.run changes).outline = overview.outline.run changes := by
  induction changes generalizing session overview with
  | nil => exact ⟨h, rfl⟩
  | cons change changes ih =>
    obtain ⟨hfirst, hrest⟩ := hpermits
    have heq := h.outline_change hfirst
    rw [← heq] at hrest
    obtain ⟨hdepicts, houtline⟩ := ih (h.change hfirst) hrest
    exact ⟨hdepicts, houtline.trans (by rw [heq]; rfl)⟩

end Depicts

/-- Every session that can be reached has an overview. -/
theorem Reached.exists_depicts {session : Session} {outline : Outline}
    (h : Reached session outline) :
    ∃ overview, Depicts session overview ∧ overview.outline = outline := by
  obtain ⟨changes, hpermits, rfl, rfl⟩ := h
  have hempty : Overview.empty.outline = Outline.empty :=
    congrArg (Outline.mk · []) tracks_empty.pairs
  rw [← hempty] at hpermits ⊢
  exact ⟨_, depicts_empty.run hpermits⟩

/-! ### Changes to the pairs of a name

A change that touches only the pairs that end at a node leaves every row of dependents as it is, but
for the node itself, and every other row of dependees. For a row of dependents this is said by
filtering the node out of it, which also keeps the order of the rest.
-/

/-- Views that differ at most in the pairs that end at a node. -/
structure Views.SameElsewhere (node : String) (v w : Views) : Prop where
  dependents : ∀ x, (w.dependents x).filter (· ≠ node) = (v.dependents x).filter (· ≠ node)
  dependees : ∀ y, y ≠ node → w.dependees y = v.dependees y

/-- A change that can touch no pair but those that end at a node, after a snapshot of the node with
the given number. -/
inductive Confined (node : String) (number : Nat) (session : Session) (outline : Outline) :
    Change → Prop
  | add (a : String) : Confined node number session outline (.add a node)
  | remove (a : String) : Confined node number session outline (.remove a node)
  | replaceDependees (names : List String) :
    Confined node number session outline (.replaceDependees node names)
  | restore : Confined node number session outline (.restore number)
  /-- Any other change that leaves all other pairs as they are, and in their order. -/
  | other {change : Change} : (∀ b, change ≠ .snapshot b) → outline.Permits change →
    session.graph.views.SameElsewhere node (session.change change).graph.views →
    Confined node number session outline change

/-- Changes of which each is confined when its turn comes. -/
def ConfinedAll (node : String) (number : Nat) (session : Session) (outline : Outline) :
    List Change → Prop
  | [] => True
  | change :: changes => Confined node number session outline change
    ∧ ConfinedAll node number (session.change change) (outline.change change) changes

section Lists

variable {α : Type} [DecidableEq α]

/-- A row differs from one in which the node is placed in nothing but the node. -/
theorem filter_placed (l : List α) (a : α) : (placed l a).filter (· ≠ a) = l.filter (· ≠ a) := by
  unfold placed
  split
  · rfl
  · simp

theorem filter_erase (l : List α) (a : α) : (l.erase a).filter (· ≠ a) = l.filter (· ≠ a) := by
  induction l with
  | nil => rfl
  | cons b l ih =>
    by_cases hb : b = a
    · simp [hb]
    · rw [List.erase_cons_tail (by simpa using hb), List.filter_cons, List.filter_cons, ih]

/-- Where the node was missing, taking it out gives the old row back. -/
theorem erase_eq_of_filter_ne_eq {l l' : List α} {a : α}
    (h : l'.filter (· ≠ a) = l.filter (· ≠ a)) (hl' : l'.Nodup) (ha : a ∉ l) : l'.erase a = l := by
  have herase : l'.erase a = l'.filter (· ≠ a) := by
    rw [hl'.erase_eq_filter]
    exact List.filter_congr fun b _ => by by_cases hb : b = a <;> simp [hb]
  rw [herase, h, List.filter_eq_self]
  intro b hb
  exact decide_eq_true (ne_of_mem_of_not_mem hb ha)

/-- All others are in both rows or in neither. -/
theorem mem_iff_of_filter_ne_eq {l l' : List α} {a b : α}
    (h : l'.filter (· ≠ a) = l.filter (· ≠ a)) (hb : b ≠ a) : b ∈ l' ↔ b ∈ l := by
  have hmem : b ∈ l'.filter (· ≠ a) ↔ b ∈ l.filter (· ≠ a) := by rw [h]
  simpa [hb] using hmem

end Lists

namespace Views.SameElsewhere

variable {old v w : Views}

/-- Right after the snapshot nothing has changed. -/
theorem refl (node : String) (v : Views) : SameElsewhere node v v := ⟨fun _ => rfl, fun _ _ => rfl⟩

/-- Changes of this kind add up to one of this kind. -/
theorem trans (h : SameElsewhere node old v) (h' : SameElsewhere node v w) :
    SameElsewhere node old w where
  dependents x := (h'.dependents x).trans (h.dependents x)
  dependees y hy := (h'.dependees y hy).trans (h.dependees y hy)

theorem add (v : Views) (a node : String) : SameElsewhere node v (v.add a node) where
  dependents x := by
    unfold Views.add
    dsimp only
    split
    · exact filter_placed _ _
    · rfl
  dependees _ hy := if_neg hy

theorem remove (v : Views) (a node : String) : SameElsewhere node v (v.remove a node) where
  dependents x := by
    unfold Views.remove
    dsimp only
    split
    · exact filter_erase _ _
    · rfl
  dependees _ hy := if_neg hy

theorem replaceDependees (v : Views) (node : String) (names : List String) :
    SameElsewhere node v (v.replaceDependees node names) where
  dependents x := by
    unfold Views.replaceDependees
    dsimp only
    split
    · exact filter_placed _ _
    · exact filter_erase _ _
  dependees _ hy := if_neg hy

theorem restore (h : SameElsewhere node old v) : SameElsewhere node old (v.restore node old) where
  dependents x := by
    unfold Views.restore
    dsimp only
    split
    · rfl
    · exact (filter_erase _ _).trans (h.dependents x)
  dependees y hy := (if_neg hy).trans (h.dependees y hy)

/-- All pairs that end elsewhere are there as before. -/
theorem pairs_iff (h : SameElsewhere node old v) {p : String × String} (hp : p.2 ≠ node) :
    p ∈ v.pairs ↔ p ∈ old.pairs :=
  mem_iff_of_filter_ne_eq (h.dependents p.1) hp

/-- With the pairs that end at the node put back, the views are what they were. -/
theorem restore_eq (h : SameElsewhere node old v)
    (hmirror : ∀ x, x ∈ old.dependees node ↔ node ∈ old.dependents x)
    (hnodup : ∀ x, (v.dependents x).Nodup) : v.restore node old = old := by
  refine Views.ext ?_ ?_ rfl
  · funext x
    show (if x ∈ old.dependees node then old.dependents x else (v.dependents x).erase node)
      = old.dependents x
    split
    · rfl
    · next hx =>
      -- The node was not in this row, and all else in it is as it was.
      exact erase_eq_of_filter_ne_eq (h.dependents x) (hnodup x) (mt (hmirror x).mpr hx)
  · funext y
    show (if y = node then old.dependees node else v.dependees y) = old.dependees y
    split
    · next hy => rw [hy]
    · next hy => exact h.dependees y hy

end Views.SameElsewhere

/-! ### Between a snapshot and its restoration

The invariant that a row of confined changes keeps: nothing else has changed since the snapshot. It
is also what permits the restoration, at whatever point it comes.
-/

/-- Only a snapshot adds to the snapshots. -/
theorem Overview.taken_change (overview : Overview) {change : Change}
    (h : ∀ b, change ≠ .snapshot b) : (overview.change change).taken = overview.taken := by
  cases change with
  | snapshot b => exact absurd rfl (h b)
  | restore number =>
    unfold Overview.change
    dsimp only
    split <;> rfl
  | _ => rfl

/-- A session that has changed at most in the pairs that end at a node since it showed what `noted`
says. -/
structure Between (node : String) (noted : Overview) (session : Session) (overview : Overview) :
    Prop where
  depicts : Depicts session overview
  taken : overview.taken = noted.taken
  elsewhere : noted.views.SameElsewhere node overview.views

namespace Between

variable {noted overview : Overview} {session : Session} {number : Nat}

theorem refl (h : Depicts session noted) (node : String) : Between node noted session noted :=
  ⟨h, rfl, .refl node noted.views⟩

theorem permits_restore (h : Between node noted session overview)
    (hnoted : noted.taken[number]? = some (node, noted.views)) :
    overview.outline.Permits (.restore number) := by
  refine ⟨node, noted.views.pairs, ?_, fun p hp => h.elsewhere.pairs_iff hp⟩
  rw [Overview.outline, List.getElem?_map, h.taken, hnoted]
  rfl

/-- The restoration puts back what was noted. -/
theorem change_restore (h : Between node noted session overview)
    (hnoted : noted.taken[number]? = some (node, noted.views)) :
    overview.change (.restore number)
      = { overview with views := overview.views.restore node noted.views } := by
  rw [Overview.change, h.taken, hnoted]

/-- A confined change is a permitted one. -/
theorem permits (h : Between node noted session overview)
    (hnoted : noted.taken[number]? = some (node, noted.views)) {change : Change}
    (hconfined : Confined node number session overview.outline change) :
    overview.outline.Permits change := by
  cases hconfined with
  | restore => exact h.permits_restore hnoted
  | other _ hpermits _ => exact hpermits
  | _ => trivial

/-- A confined change leaves the session as it is, but for the pairs that end at the node. -/
theorem change (h : Between node noted session overview)
    (hnoted : noted.taken[number]? = some (node, noted.views)) {change : Change}
    (hconfined : Confined node number session overview.outline change) :
    Between node noted (session.change change) (overview.change change) := by
  have hdepicts := h.depicts.change (h.permits hnoted hconfined)
  cases hconfined with
  | add a => exact ⟨hdepicts, h.taken, h.elsewhere.trans (.add _ a node)⟩
  | remove a => exact ⟨hdepicts, h.taken, h.elsewhere.trans (.remove _ a node)⟩
  | replaceDependees names =>
    exact ⟨hdepicts, h.taken, h.elsewhere.trans (.replaceDependees _ node names)⟩
  | restore =>
    rw [h.change_restore hnoted] at hdepicts ⊢
    exact ⟨hdepicts, h.taken, h.elsewhere.restore⟩
  | other hchange _ helsewhere =>
    rw [h.depicts.views, hdepicts.views] at helsewhere
    exact ⟨hdepicts, (overview.taken_change hchange).trans h.taken, h.elsewhere.trans helsewhere⟩

/-- So does any row of confined changes. -/
theorem run (h : Between node noted session overview)
    (hnoted : noted.taken[number]? = some (node, noted.views)) {changes : List Change}
    (hconfined : ConfinedAll node number session overview.outline changes) :
    Between node noted (session.run changes) (overview.run changes) := by
  induction changes generalizing session overview with
  | nil => exact h
  | cons change changes ih =>
    obtain ⟨hfirst, hrest⟩ := hconfined
    rw [← h.depicts.outline_change (h.permits hnoted hfirst)] at hrest
    exact ih (h.change hnoted hfirst) hrest

/-- The snapshot takes the session back to what it showed. -/
theorem restore (h : Between node noted session overview)
    (hnoted : noted.taken[number]? = some (node, noted.views))
    (hmirror : ∀ x, x ∈ noted.views.dependees node ↔ node ∈ noted.views.dependents x) :
    Depicts (session.change (.restore number)) noted := by
  have hdepicts := h.depicts.change (h.permits_restore hnoted)
  have hnodup : ∀ x, (overview.views.dependents x).Nodup := by
    rw [← h.depicts.views]
    exact h.depicts.counted.valid.nodup_dependents
  rwa [h.change_restore hnoted, h.elsewhere.restore_eq hmirror hnodup, h.taken] at hdepicts

end Between

/-! ### Answers -/

/-- Two graphs that answer every question alike. -/
structure SameAnswers (g g' : Graph) : Prop where
  dependents : ∀ a, g.dependents a = g'.dependents a
  dependees : ∀ b, g.dependees b = g'.dependees b
  size : g.size = g'.size
  dependeeCount : ∀ b, g.dependeeCount b = g'.dependeeCount b
  hasDependents : ∀ a, g.hasDependents a = g'.hasDependents a
  hasDependees : ∀ b, g.hasDependees b = g'.hasDependees b
  order : ∀ starts, g.order starts = g'.order starts

/-- What two graphs show settles all answers. -/
theorem sameAnswers_of_views (hg : Valid g) (hg' : Valid g') (h : g.views = g'.views) :
    SameAnswers g g' := by
  have hsame := same_of_views h
  refine ⟨hsame.dependents, hsame.dependees, hsame.size, ?_, ?_, ?_, hsame.order hg hg'⟩
  · intro b
    rw [dependeeCount_eq, dependeeCount_eq, hsame.dependees]
  · intro a
    rw [hasDependents_eq, hasDependents_eq, hsame.dependents]
  · intro b
    rw [hasDependees_eq, hasDependees_eq, hsame.dependees]

/-- Sessions that show the same have graphs that answer alike. -/
theorem Depicts.sameAnswers {session session' : Session} {overview : Overview}
    (h : Depicts session overview) (h' : Depicts session' overview) :
    SameAnswers session.graph session'.graph :=
  sameAnswers_of_views h.counted.valid h'.counted.valid (h.views.trans h'.views.symm)

/-! ### Undoing -/

/-- A snapshot of a node is taken, some changes are made, and the snapshot is restored. -/
def Session.tried (session : Session) (node : String) (changes : List Change) : Session :=
  ((session.change (.snapshot node)).run changes).change (.restore session.taken.length)

namespace Reached

variable {session : Session} {outline : Outline}

/-- However the pairs that end at a node are changed after a snapshot of it, among the changes
restorations of the same snapshot, restoring it takes the graph back to what it was, order included.
It can be restored again after more such changes; and whatever changes come later, the answers are
those that there would be if nothing had happened since the snapshot. -/
theorem restore_exact (h : Reached session outline) (node : String) {changes : List Change}
    (hconfined : ConfinedAll node session.taken.length (session.change (.snapshot node))
      (outline.change (.snapshot node)) changes) :
    SameAnswers (session.tried node changes).graph session.graph
    ∧ (∀ more, ConfinedAll node session.taken.length (session.tried node changes)
        (outline.change (.snapshot node)) more →
      SameAnswers (((session.tried node changes).run more).change
        (.restore session.taken.length)).graph session.graph)
    ∧ ∀ later, (outline.change (.snapshot node)).PermitsAll later →
      SameAnswers ((session.tried node changes).run later).graph
        ((session.change (.snapshot node)).run later).graph := by
  obtain ⟨overview, hdepicts, rfl⟩ := h.exists_depicts
  have hnoted : Depicts (session.change (.snapshot node)) (overview.change (.snapshot node)) :=
    hdepicts.change trivial
  have houtline : (overview.change (.snapshot node)).outline
      = overview.outline.change (.snapshot node) := hdepicts.outline_change trivial
  have htaken : (overview.change (.snapshot node)).taken[session.taken.length]?
      = some (node, (overview.change (.snapshot node)).views) := by
    simp [Overview.change, hdepicts.taken.length_eq]
  have hmirror : ∀ x, x ∈ overview.views.dependees node ↔ node ∈ overview.views.dependents x := by
    intro x
    rw [← hdepicts.views]
    exact hdepicts.counted.valid.mem_dependees
  rw [← houtline] at hconfined ⊢
  have hback : ∀ {session' : Session}, Depicts session' (overview.change (.snapshot node)) →
      SameAnswers session'.graph session.graph := fun hdepicts' =>
    sameAnswers_of_views hdepicts'.counted.valid hdepicts.counted.valid
      (hdepicts'.views.trans hdepicts.views.symm)
  have hbetween := Between.refl hnoted node
  have hrestored : Depicts (session.tried node changes) (overview.change (.snapshot node)) :=
    (hbetween.run htaken hconfined).restore htaken hmirror
  refine ⟨hback hrestored, ?_, ?_⟩
  · intro more hmore
    have hagain := (Between.refl hrestored node).run htaken hmore
    exact hback (hagain.restore htaken hmirror)
  · intro later hlater
    exact (hrestored.run hlater).1.sameAnswers (hnoted.run hlater).1

/-- A name that depends on itself loses that pair and another, and they are put back, the first of
them twice. -/
theorem restore_exact_loop :
    ∃ session outline, Reached session outline
      ∧ session.graph.dependents "A" = ["B", "C"] ∧ session.graph.dependees "B" = ["A", "B"]
      ∧ ((session.tried "B" [.replaceDependees "B" ["D"], .add "A" "B", .restore 0,
          .remove "A" "B", .add "A" "B"]).graph.dependents "A" = ["B", "C"])
      ∧ ((session.tried "B" [.replaceDependees "B" ["D"], .add "A" "B", .restore 0,
          .remove "A" "B", .add "A" "B"]).graph.dependees "B" = ["A", "B"]) := by
  have h := reached_run [.add "A" "B", .add "B" "B", .add "A" "C"]
    ⟨trivial, trivial, trivial, trivial⟩
  have hdependents : (Session.empty.run [.add "A" "B", .add "B" "B",
      .add "A" "C"]).graph.dependents "A" = ["B", "C"] := by decide
  have hdependees : (Session.empty.run [.add "A" "B", .add "B" "B",
      .add "A" "C"]).graph.dependees "B" = ["A", "B"] := by decide
  have hconfined : ConfinedAll "B" 0
      ((Session.empty.run [.add "A" "B", .add "B" "B", .add "A" "C"]).change (.snapshot "B"))
      ((Outline.empty.run [.add "A" "B", .add "B" "B", .add "A" "C"]).change (.snapshot "B"))
      [.replaceDependees "B" ["D"], .add "A" "B", .restore 0, .remove "A" "B", .add "A" "B"] :=
    ⟨.replaceDependees _, .add _, .restore, .remove _, .add _, trivial⟩
  obtain ⟨hsame, -, -⟩ := restore_exact h "B" hconfined
  exact ⟨_, _, h, hdependents, hdependees, (hsame.dependents "A").trans hdependents,
    (hsame.dependees "B").trans hdependees⟩

end Reached

end Worksheet.Graph
