import Worksheet.Proofs.Graph.Pairs

/-!
# Changes to a graph

A graph goes through any number of changes, snapshots and restorations among them, as a plain set of
pairs does. A snapshot may be restored as long as all pairs are as they were when it was taken, but
for those that end at its node.

* `Session.run`, `Outline.run`: changes to a graph, and the same changes to a set of pairs.
* `Outline.Permits`: snapshots are restored only when they may be.
* `Tracks.run`: the graph keeps up with the set.
* `shows_run`: what the views of the graph show is the set.
-/

namespace Worksheet.Graph

variable {g g' : Graph}

/-! ### Changes

A session is a graph with the snapshots that have been taken of it. Each change is one call; a
snapshot that does not exist is not restored.
-/

/-- A change to a graph. The snapshots are numbered in the order in which they are taken. -/
inductive Change where
  | add (a b : String)
  | remove (a b : String)
  | replaceDependents (node : String) (names : List String)
  | replaceDependees (node : String) (names : List String)
  | snapshot (node : String)
  | restore (number : Nat)
deriving Repr, DecidableEq

/-- A graph, and the snapshots that have been taken of it. -/
structure Session where
  graph : Graph
  taken : List Snapshot
deriving Repr, DecidableEq

namespace Session

/-- A graph without pairs, and no snapshots. -/
def empty : Session := ⟨.empty, []⟩

/-- What a change makes of a session. -/
def change (session : Session) : Change → Session
  | .add a b => { session with graph := session.graph.add a b }
  | .remove a b => { session with graph := session.graph.remove a b }
  | .replaceDependents node names =>
    { session with graph := session.graph.replaceDependents node names }
  | .replaceDependees node names =>
    { session with graph := session.graph.replaceDependees node names }
  | .snapshot node => { session with taken := session.taken ++ [session.graph.snapshot node] }
  | .restore number =>
    match session.taken[number]? with
    | some saved => { session with graph := session.graph.restore saved }
    | none => session

/-- Changes one after the other. -/
def run (session : Session) (changes : List Change) : Session := changes.foldl change session

end Session

/-! ### The same changes to a set

The specification of the changes: nothing but a set of pairs, and what has been remembered of it.
Names, slots, rows and counts do not occur.
-/

/-- A set of pairs, a name and one that depends on it, and what has been remembered of it: for each
snapshot its node, and the set as it was. -/
structure Outline where
  pairs : Set (String × String)
  taken : List (String × Set (String × String))

namespace Outline

def empty : Outline := ⟨∅, []⟩

def change (outline : Outline) : Change → Outline
  | .add a b => { outline with pairs := insert (a, b) outline.pairs }
  | .remove a b => { outline with pairs := outline.pairs \ {(a, b)} }
  | .replaceDependents node names =>
    { outline with pairs := {p | if p.1 = node then p.2 ∈ names else p ∈ outline.pairs} }
  | .replaceDependees node names =>
    { outline with pairs := {p | if p.2 = node then p.1 ∈ names else p ∈ outline.pairs} }
  | .snapshot node => { outline with taken := outline.taken ++ [(node, outline.pairs)] }
  | .restore number =>
    match outline.taken[number]? with
    | some (node, old) =>
      { outline with pairs := {p | if p.2 = node then p ∈ old else p ∈ outline.pairs} }
    | none => outline

def run (outline : Outline) (changes : List Change) : Outline := changes.foldl change outline

/-- A snapshot may be restored if it has been taken, and if no pair has changed since but those that
end at its node. All other changes may be made at any time. -/
def Permits (outline : Outline) : Change → Prop
  | .restore number => ∃ node old, outline.taken[number]? = some (node, old)
      ∧ ∀ p : String × String, p.2 ≠ node → (p ∈ outline.pairs ↔ p ∈ old)
  | _ => True

/-- Changes of which each may be made when its turn comes. -/
def PermitsAll (outline : Outline) : List Change → Prop
  | [] => True
  | change :: changes => outline.Permits change ∧ (outline.change change).PermitsAll changes

end Outline

/-- A snapshot that is restored after another pair has come loses count of it. -/
example :
    let g := (Session.empty.run [.snapshot "B", .add "A" "C", .restore 0]).graph
    g.size = 0 ∧ g.dependents "A" = ["C"] := by decide

/-! ### Names are kept -/

/-- A pair that is entered has its names seen. -/
theorem names_add (g : Graph) (a b : String) : g.names <+: (g.add a b).names := by
  obtain ⟨s, t, -, -, heq⟩ := exists_link g a b
  rw [heq, names_link]
  exact (grown_seen g a [b]).names

/-- A pair that is taken out leaves its names where they are. -/
theorem names_remove (g : Graph) (a b : String) : (g.remove a b).names = g.names := by
  unfold remove
  split
  · exact names_unlink _ _ _
  · rfl

/-- A replacement forgets no name. -/
theorem names_replaceDependees (h : Valid g) (node : String) (names : List String) :
    g.names <+: (g.replaceDependees node names).names := by
  obtain ⟨t, wanted, ht, hwanted, heq⟩ := exists_exchange g node names
  rw [heq, ((h.seen node names).exchange (lt_of_slot? ht) hwanted.lt).names]
  exact (grown_seen g node names).names

theorem names_replaceDependents (h : Valid g) (node : String) (names : List String) :
    g.names <+: (g.replaceDependents node names).names := by
  have hturned := names_replaceDependees h.flip node names
  rwa [← flip_replaceDependents h] at hturned

theorem names_restore (g : Graph) (saved : Snapshot) : g.names <+: (g.restore saved).names :=
  (grown_intern g saved.node).names

/-! ### Keeping up with a set

The invariant between a session and the set of its changes. A snapshot was taken of a graph with the
remembered pairs, whose slots are those of the graph as it is now, because slots are kept for good.
-/

/-- In lists that are related entry by entry, an entry of the second has its fellow in the first. -/
theorem exists_getElem? {α β : Type} {r : α → β → Prop} {l : List α} {l' : List β}
    (h : List.Forall₂ r l l') {number : Nat} {b : β} (hb : l'[number]? = some b) :
    ∃ a, l[number]? = some a ∧ r a b := by
  obtain ⟨hlt, rfl⟩ := List.getElem?_eq_some_iff.mp hb
  have hlt' := h.length_eq ▸ hlt
  exact ⟨_, List.getElem?_eq_getElem hlt', h.get hlt' hlt⟩

/-- A snapshot that was taken when the graph had the remembered pairs. -/
def Remembers (g : Graph) (saved : Snapshot) (entry : String × Set (String × String)) : Prop :=
  ∃ g₀, saved = g₀.snapshot entry.1 ∧ Counted g₀ ∧ g₀.pairs = entry.2 ∧ g₀.names <+: g.names

/-- A graph that has the pairs of a set and counts them, with snapshots that remember what has been
remembered of the set. -/
structure Tracks (session : Session) (outline : Outline) : Prop where
  counted : Counted session.graph
  pairs : session.graph.pairs = outline.pairs
  taken : List.Forall₂ (Remembers session.graph) session.taken outline.taken

/-- A graph without pairs keeps up with the empty set. -/
theorem tracks_empty : Tracks .empty .empty := by
  refine ⟨counted_empty, ?_, .nil⟩
  ext p
  simp [Session.empty, Outline.empty, mem_pairs, dependents_eq_nil (g := .empty) (a := p.1) rfl]

namespace Tracks

variable {session : Session} {outline : Outline}

/-- Snapshots still remember what they did when the graph has seen more names. -/
theorem taken_of_names (h : Tracks session outline) (hnames : session.graph.names <+: g.names) :
    List.Forall₂ (Remembers g) session.taken outline.taken :=
  h.taken.imp fun _ _ ⟨g₀, hsaved, hcounted, hpairs, hseen⟩ =>
    ⟨g₀, hsaved, hcounted, hpairs, hseen.trans hnames⟩

/-- The graph of the session is replaced by one with the pairs that the set has then. -/
theorem with_graph (h : Tracks session outline) {pairs : Set (String × String)}
    (hcounted : Counted g) (hpairs : g.pairs = pairs)
    (hnames : session.graph.names <+: g.names) :
    Tracks { session with graph := g } { outline with pairs } :=
  ⟨hcounted, hpairs, h.taken_of_names hnames⟩

/-- The graph and the set come back to what they were when the snapshot was taken. -/
theorem restore (h : Tracks session outline) {number : Nat}
    (hpermits : outline.Permits (.restore number)) :
    Tracks (session.change (.restore number)) (outline.change (.restore number)) := by
  obtain ⟨node, old, hentry, hothers⟩ := hpermits
  obtain ⟨saved, hsaved, g₀, rfl, hcounted, rfl, hnames⟩ := exists_getElem? h.taken hentry
  have hagrees : Agrees g₀ (session.graph.restore (g₀.snapshot node)) :=
    agrees_restore hcounted.valid h.counted.valid hnames (h.pairs ▸ hothers)
  have hold : {p | if p.2 = node then p ∈ g₀.pairs else p ∈ outline.pairs} = g₀.pairs := by
    ext p
    rw [Set.mem_ofPred_eq]
    split
    · rfl
    · next hp => exact hothers p hp
  rw [Session.change, Outline.change, hsaved, hentry]
  exact h.with_graph (hcounted.of_agrees hagrees) ((hagrees.pairs hcounted.valid).trans hold.symm)
    (names_restore _ _)

/-- Each change keeps the graph up with the set. -/
theorem change (h : Tracks session outline) {change : Change} (hpermits : outline.Permits change) :
    Tracks (session.change change) (outline.change change) := by
  have hvalid := h.counted.valid
  cases change with
  | add a b =>
    exact h.with_graph (h.counted.add a b) ((pairs_add hvalid a b).trans (by rw [h.pairs]))
      (names_add _ a b)
  | remove a b =>
    refine h.with_graph (h.counted.remove a b) ((pairs_remove hvalid a b).trans (by rw [h.pairs])) ?_
    rw [names_remove]
  | replaceDependents node names =>
    exact h.with_graph (h.counted.replaceDependents node names)
      ((pairs_replaceDependents hvalid node names).trans (by rw [h.pairs]))
      (names_replaceDependents hvalid node names)
  | replaceDependees node names =>
    exact h.with_graph (h.counted.replaceDependees node names)
      ((pairs_replaceDependees hvalid node names).trans (by rw [h.pairs]))
      (names_replaceDependees hvalid node names)
  | snapshot node =>
    refine ⟨h.counted, h.pairs, List.rel_append h.taken (.cons ?_ .nil)⟩
    exact ⟨session.graph, rfl, h.counted, h.pairs, List.prefix_refl _⟩
  | restore number => exact h.restore hpermits

/-- So does any row of changes. -/
theorem run (h : Tracks session outline) {changes : List Change}
    (hpermits : outline.PermitsAll changes) :
    Tracks (session.run changes) (outline.run changes) := by
  induction changes generalizing session outline with
  | nil => exact h
  | cons change changes ih => exact ih (h.change hpermits.1) hpermits.2

end Tracks

/-! ### Views -/

/-- The count is the length of the list, without the names being looked up. -/
theorem dependeeCount_eq (g : Graph) (node : String) :
    g.dependeeCount node = (g.dependees node).length := by
  unfold dependeeCount dependees
  split <;> simp

/-- Whether the list is empty can be told from the row. -/
theorem hasDependents_eq (g : Graph) (node : String) :
    g.hasDependents node = !(g.dependents node).isEmpty := by
  unfold hasDependents dependents
  split <;> simp

theorem hasDependees_eq (g : Graph) (node : String) :
    g.hasDependees node = !(g.dependees node).isEmpty :=
  hasDependents_eq g.flip node

/-- All that can be asked of a graph is answered from one set of pairs. -/
structure Shows (g : Graph) (pairs : Set (String × String)) : Prop where
  mem_dependents : ∀ s t, t ∈ g.dependents s ↔ (s, t) ∈ pairs
  mem_dependees : ∀ s t, s ∈ g.dependees t ↔ (s, t) ∈ pairs
  mirror : ∀ s t, t ∈ g.dependents s ↔ s ∈ g.dependees t
  nodup_dependents : ∀ s, (g.dependents s).Nodup
  nodup_dependees : ∀ t, (g.dependees t).Nodup
  size : pairs.encard = g.size
  dependeeCount : ∀ t, g.dependeeCount t = (g.dependees t).length
  hasDependents : ∀ s, g.hasDependents s ↔ g.dependents s ≠ []
  hasDependees : ∀ t, g.hasDependees t ↔ g.dependees t ≠ []

/-- A counted graph shows its own pairs. -/
theorem Counted.shows (h : Counted g) : Shows g g.pairs where
  mem_dependents _ _ := Iff.rfl
  mem_dependees _ _ := h.valid.mem_dependees
  mirror _ _ := h.valid.mem_dependees.symm
  nodup_dependents := h.valid.nodup_dependents
  nodup_dependees := h.valid.nodup_dependees
  size := h.encard_pairs
  dependeeCount := dependeeCount_eq g
  hasDependents s := by simp [hasDependents_eq]
  hasDependees t := by simp [hasDependees_eq]

/-- Whatever changes a graph has gone through from the start, both its views show the pairs that the
same changes make of a set, each once, and its size is their number. -/
theorem shows_run (changes : List Change) (hpermits : Outline.empty.PermitsAll changes) :
    Shows (Session.empty.run changes).graph (Outline.empty.run changes).pairs := by
  have htracks := tracks_empty.run hpermits
  rw [← htracks.pairs]
  exact htracks.counted.shows

/-- A name that depends on itself, a name that is given twice, and a snapshot that is restored. -/
theorem shows_run_restore :
    Outline.empty.PermitsAll [.add "A" "A", .snapshot "B", .replaceDependees "B" ["C", "A", "C"],
        .restore 0, .replaceDependents "A" ["B", "A", "B"]]
      ∧ Shows (Session.empty.run [.add "A" "A", .snapshot "B",
          .replaceDependees "B" ["C", "A", "C"], .restore 0,
          .replaceDependents "A" ["B", "A", "B"]]).graph {("A", "B"), ("A", "A")} := by
  have hpermits : Outline.empty.PermitsAll [.add "A" "A", .snapshot "B",
      .replaceDependees "B" ["C", "A", "C"], .restore 0,
      .replaceDependents "A" ["B", "A", "B"]] := by
    refine ⟨trivial, trivial, trivial, ⟨"B", _, rfl, ?_⟩, trivial, trivial⟩
    -- Only pairs that end at B have changed since.
    intro p hp
    exact iff_of_eq (if_neg hp)
  have hpairs : (Outline.empty.run [.add "A" "A", .snapshot "B",
      .replaceDependees "B" ["C", "A", "C"], .restore 0,
      .replaceDependents "A" ["B", "A", "B"]]).pairs = {("A", "B"), ("A", "A")} := by
    ext ⟨a, b⟩
    simp only [Outline.run, Outline.change, Outline.empty, List.foldl_cons, List.foldl_nil,
      List.nil_append, List.getElem?_cons_zero, Set.mem_ofPred_eq, Set.mem_insert_iff,
      Set.mem_singleton_iff, Set.mem_empty_iff_false, List.mem_cons, List.not_mem_nil,
      Prod.mk.injEq]
    grind
  exact ⟨hpermits, hpairs ▸ shows_run _ hpermits⟩

end Worksheet.Graph
