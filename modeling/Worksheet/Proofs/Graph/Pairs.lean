import Worksheet.Proofs.Graph.Restore

/-!
# Graphs as sets of pairs

What a graph amounts to, without the order of its rows: a set of pairs, a name and one that depends
on it. Every change to a graph is a change to its set of pairs, and the size of the graph is the
number of its pairs.

* `pairs_add`, `pairs_remove`, `pairs_replaceDependents`, `pairs_replaceDependees`: what becomes of
  the pairs.
* `agrees_restore`: a snapshot that is restored brings them back.
* `Counted`: valid graphs whose size is right, and what keeps them so.
* `Counted.encard_pairs`: the size is the number of pairs.
-/

namespace Worksheet.Graph

variable {g g' : Graph} {a b node : String} {s t : Nat}

/-! ### Pairs

A pair of names and the pair of their slots say the same, but slots do not change when names are
seen for the first time. What happens to the rows is therefore said of slots, and carried over to
names at the end.
-/

/-- The pairs of a graph: a name, and one that depends on it. -/
def pairs (g : Graph) : Set (String × String) := {p | p.2 ∈ g.dependents p.1}

/-- The pairs of slots. -/
def slotPairs (g : Graph) : Set (Nat × Nat) := {p | p.2 ∈ row g.forward p.1}

theorem mem_pairs {p : String × String} : p ∈ g.pairs ↔ p.2 ∈ g.dependents p.1 := Iff.rfl

theorem mem_slotPairs : (s, t) ∈ g.slotPairs ↔ t ∈ row g.forward s := Iff.rfl

/-- A pair of names is a pair of the slots that they have. -/
theorem Valid.mem_pairs_iff (h : Valid g) :
    (a, b) ∈ g.pairs ↔ ∃ s t, g.slot? a = some s ∧ g.slot? b = some t ∧ (s, t) ∈ g.slotPairs := by
  constructor
  · exact h.slots_of_mem_dependents
  · rintro ⟨s, t, ha, hb, hst⟩
    exact (h.mem_dependents_iff ha hb).mpr hst

/-- The pairs of slots, said of the slots that the names have by now. -/
theorem Valid.mem_slotPairs_iff (h : Valid g) (hnames : g.names <+: g'.names) :
    (s, t) ∈ g.slotPairs
      ↔ ∃ a b, g'.slot? a = some s ∧ g'.slot? b = some t ∧ (a, b) ∈ g.pairs := by
  constructor
  · intro hst
    have hs := slot?_nameAt h.nodup_names (h.source_lt hst)
    have ht := slot?_nameAt h.nodup_names (h.target_lt hst)
    exact ⟨g.nameAt s, g.nameAt t, slot?_of_names hnames hs, slot?_of_names hnames ht,
      h.mem_pairs_iff.mpr ⟨s, t, hs, ht, hst⟩⟩
  · rintro ⟨a, b, ha, hb, hab⟩
    obtain ⟨s', t', ha', hb', hst⟩ := h.mem_pairs_iff.mp hab
    cases ha.symm.trans (slot?_of_names hnames ha')
    cases hb.symm.trans (slot?_of_names hnames hb')
    exact hst

/-- A pair of slots is there if the names that have the slots by now are a pair. -/
theorem Valid.mem_slotPairs_of_names (h : Valid g) (hnames : g.names <+: g'.names)
    (ha : g'.slot? a = some s) (hb : g'.slot? b = some t) :
    (s, t) ∈ g.slotPairs ↔ (a, b) ∈ g.pairs := by
  rw [h.mem_slotPairs_iff hnames]
  constructor
  · rintro ⟨a', b', ha', hb', hab⟩
    rwa [slot?_inj ha ha', slot?_inj hb hb']
  · intro hab
    exact ⟨a, b, ha, hb, hab⟩

/-- A valid graph with the pairs of slots of another, which has seen no other names. -/
structure Agrees (g g' : Graph) : Prop where
  valid : Valid g'
  names : g.names <+: g'.names
  slotPairs : g'.slotPairs = g.slotPairs
  size : g'.size = g.size

/-- Names that are seen for the first time make no pairs. -/
theorem Agrees.pairs (h : Agrees g g') (hg : Valid g) : g'.pairs = g.pairs := by
  ext ⟨a, b⟩
  rw [h.valid.mem_pairs_iff, hg.mem_pairs_iff, h.slotPairs]
  constructor
  · rintro ⟨s, t, ha, hb, hst⟩
    obtain ⟨a', b', ha', hb', hab⟩ := (hg.mem_slotPairs_iff h.names).mp hst
    rw [slot?_inj ha ha', slot?_inj hb hb']
    exact hg.mem_pairs_iff.mp hab
  · rintro ⟨s, t, ha, hb, hst⟩
    exact ⟨s, t, slot?_of_names h.names ha, slot?_of_names h.names hb, hst⟩

/-- Where only names have been seen, all pairs of slots are as they were. -/
theorem Grown.agrees (h : Grown g g') (hg' : Valid g') : Agrees g g' where
  valid := hg'
  names := h.names
  slotPairs := by
    ext p
    exact iff_of_eq (congrArg (p.2 ∈ ·) (h.row_forward p.1))
  size := h.size

/-! ### One pair -/

/-- One pair of slots comes, if it was not there. -/
theorem slotPairs_link (h : Valid g) (hs : s < g.names.length) :
    (g.link s t).slotPairs = insert (s, t) g.slotPairs := by
  ext ⟨x, y⟩
  rw [Set.mem_insert_iff, mem_slotPairs, mem_slotPairs, h.row_forward_link hs]
  by_cases hx : x = s
  · subst hx
    rw [if_pos rfl, mem_placed, Prod.mk.injEq]
    tauto
  · simp [hx]

theorem slotPairs_unlink (h : Valid g) :
    (g.unlink s t).slotPairs = g.slotPairs \ {(s, t)} := by
  ext ⟨x, y⟩
  rw [Set.mem_sdiff, mem_slotPairs, mem_slotPairs, h.row_forward_unlink]
  by_cases hx : x = s
  · subst hx
    rw [if_pos rfl, (h.nodup_forward x).mem_erase_iff]
    simp
    tauto
  · simp [hx]

/-- Entered by slots, a pair is entered by the names that have them. -/
theorem pairs_link (h : Valid g) (ha : g.slot? a = some s) (hb : g.slot? b = some t) :
    (g.link s t).pairs = insert (a, b) g.pairs := by
  ext ⟨x, y⟩
  rw [Set.mem_insert_iff, mem_pairs, mem_pairs, h.dependents_link ha hb, Prod.mk.injEq]
  by_cases hx : x = a
  · subst hx
    rw [if_pos rfl, mem_placed]
    tauto
  · simp [hx]

theorem pairs_unlink (h : Valid g) (ha : g.slot? a = some s) (hb : g.slot? b = some t) :
    (g.unlink s t).pairs = g.pairs \ {(a, b)} := by
  ext ⟨x, y⟩
  rw [Set.mem_sdiff, Set.mem_singleton_iff, mem_pairs, mem_pairs, h.dependents_unlink ha hb,
    Prod.mk.injEq]
  by_cases hx : x = a
  · subst hx
    rw [if_pos rfl, (h.nodup_dependents x).mem_erase_iff]
    tauto
  · simp [hx]

/-- Entering a pair is entering a pair of slots, once both names have been seen. -/
theorem exists_link (g : Graph) (a b : String) :
    ∃ s t, (g.seen a [b]).slot? a = some s ∧ (g.seen a [b]).slot? b = some t
      ∧ g.add a b = (g.seen a [b]).link s t :=
  ⟨(g.intern a).1, ((g.intern a).2.intern b).1,
    slot?_of_names (grown_intern _ b).names (slot?_intern g a), slot?_intern _ b, rfl⟩

/-- `add` enters one pair, whether or not its names have been seen before. -/
theorem pairs_add (h : Valid g) (a b : String) : (g.add a b).pairs = insert (a, b) g.pairs := by
  have hk := h.seen a [b]
  obtain ⟨s, t, ha, hb, heq⟩ := exists_link g a b
  rw [heq, pairs_link hk ha hb, ((grown_seen g a [b]).agrees hk).pairs h]

/-- `remove` takes one pair out and leaves all others. -/
theorem pairs_remove (h : Valid g) (a b : String) : (g.remove a b).pairs = g.pairs \ {(a, b)} := by
  unfold remove
  split
  · next s t ha hb => exact pairs_unlink h ha hb
  · next hnone =>
    -- A name that has not been seen is in no pair.
    refine (Set.sdiff_singleton_eq_self ?_).symm
    intro hab
    obtain ⟨s, t, ha, hb, -⟩ := h.mem_pairs_iff.mp hab
    exact hnone s t ha hb

/-! ### The graph turned round

The two views change places when every pair is turned round. Each change to the one view is thereby
a change to the other, so that what is known of dependees need not be proved again of dependents.
-/

/-- Turned round, a graph has its pairs turned round. -/
theorem mem_pairs_flip (h : Valid g) : (a, b) ∈ g.flip.pairs ↔ (b, a) ∈ g.pairs :=
  h.mem_dependees

/-- A name is given the same slot in the graph turned round. -/
theorem flip_intern (g : Graph) (name : String) :
    g.flip.intern name = ((g.intern name).1, (g.intern name).2.flip) := by
  have hslot : g.flip.slot? name = g.slot? name := rfl
  rw [intern, intern, hslot]
  cases g.slot? name <;> rfl

theorem flip_internAll (g : Graph) (names : List String) :
    g.flip.internAll names = ((g.internAll names).1, (g.internAll names).2.flip) := by
  induction names generalizing g with
  | nil => rfl
  | cons name names ih => simp only [internAll, flip_intern, ih]

/-- To enter a pair is to enter it turned round. -/
theorem flip_link (h : Valid g) (s t : Nat) : (g.link s t).flip = g.flip.link t s := by
  by_cases hst : t ∈ row g.forward s
  · have hts : s ∈ row g.flip.forward t := (h.mirror s t).mp hst
    rw [link, link, if_pos hst, if_pos hts]
  · have hts : s ∉ row g.flip.forward t := mt (h.mirror s t).mpr hst
    rw [link, link, if_neg hst, if_neg hts]
    rfl

/-- To take a pair out is to take it out turned round. -/
theorem flip_unlink (h : Valid g) (s t : Nat) : (g.unlink s t).flip = g.flip.unlink t s := by
  by_cases hst : t ∈ row g.forward s
  · have hts : s ∈ row g.flip.forward t := (h.mirror s t).mp hst
    rw [unlink, unlink, if_pos hst, if_pos hts]
    rfl
  · have hts : s ∉ row g.flip.forward t := mt (h.mirror s t).mpr hst
    rw [unlink, unlink, if_neg hst, if_neg hts]

/-- What each drop and each entry preserves of two graphs, their exchanges preserve. -/
theorem exchange_rel {r : Graph → Graph → Prop} {drop enter drop' enter' : Graph → Nat → Graph}
    {old wanted : List Nat} (h : r g g') (hdrop : ∀ k k' s, r k k' → r (drop k s) (drop' k' s))
    (henter : ∀ k k', ∀ s ∈ wanted, r k k' → r (enter k s) (enter' k' s)) :
    r (g.exchange drop enter old wanted) (g'.exchange drop' enter' old wanted) := by
  refine List.foldl_rel (List.foldl_rel h fun s _ k k' => hdrop k k' s) ?_
  intro s hs k k'
  exact henter k k' s (List.mem_eraseDups.mp hs)

/-- What each drop and each entry preserves, a whole exchange preserves. -/
theorem exchange_preserves {P : Graph → Prop} {drop enter : Graph → Nat → Graph}
    {old wanted : List Nat} (h : P g) (hdrop : ∀ k s, P k → P (drop k s))
    (henter : ∀ k, ∀ s ∈ wanted, P k → P (enter k s)) :
    P (g.exchange drop enter old wanted) :=
  @exchange_rel g g (fun k _ => P k) drop enter drop enter old wanted h (fun k _ => hdrop k)
    fun k _ => henter k

/-- Exchanges of two graphs, one of them turned round. -/
theorem flip_exchange (h : Valid g) (hs : s < g.names.length) (old : List Nat) {wanted : List Nat}
    (hwanted : ∀ t ∈ wanted, t < g.names.length) :
    (g.exchange (fun k t => k.unlink s t) (fun k t => k.link s t) old wanted).flip
      = g.flip.exchange (fun k t => k.unlink t s) (fun k t => k.link t s) old wanted := by
  -- Along both exchanges the graphs stay valid, with the same names.
  let Turned (k k' : Graph) : Prop := k.flip = k' ∧ Valid k ∧ k.names = g.names
  refine (exchange_rel (r := Turned) ⟨rfl, h, rfl⟩ ?_ ?_).1
  · rintro k _ t ⟨rfl, hk, hnames⟩
    exact ⟨flip_unlink hk s t, hk.unlink s t, (names_unlink k s t).trans hnames⟩
  · rintro k _ t ht ⟨rfl, hk, hnames⟩
    have htlt := hwanted t ht
    rw [← hnames] at hs htlt
    exact ⟨flip_link hk s t, hk.link hs htlt, (names_link k s t).trans hnames⟩

/-- To replace the dependents of a name is to replace its dependees in the graph turned round. -/
theorem flip_replaceDependents (h : Valid g) (node : String) (names : List String) :
    (g.replaceDependents node names).flip = g.flip.replaceDependees node names := by
  have hnode : (g.seen node names).slot? node = some (g.intern node).1 :=
    slot?_of_names (grown_internAll _ names).names (slot?_intern g node)
  have hwanted : SlotsOf (g.seen node names) names ((g.intern node).2.internAll names).1 :=
    slots_internAll _ names
  have hturned : g.flip.replaceDependees node names = (g.seen node names).flip.exchange
      (fun k t => k.unlink t (g.intern node).1) (fun k t => k.link t (g.intern node).1)
      (row (g.seen node names).forward (g.intern node).1)
      ((g.intern node).2.internAll names).1 := by
    simp only [replaceDependees, flip_intern, flip_internAll]
    rfl
  rw [hturned]
  exact flip_exchange (h.seen node names) (lt_of_slot? hnode) _ hwanted.lt

/-- A replacement of dependents leaves a valid graph, since the one turned round is valid. -/
theorem Valid.replaceDependents (h : Valid g) (node : String) (names : List String) :
    Valid (g.replaceDependents node names) := by
  have hturned := (h.flip.replaceDependees node names).flip
  rwa [← flip_replaceDependents h] at hturned

/-! ### The pairs of a name -/

/-- The pairs that end at the node are the wanted ones; all others stay. -/
theorem pairs_replaceDependees (h : Valid g) (node : String) (names : List String) :
    (g.replaceDependees node names).pairs
      = {p | if p.2 = node then p.1 ∈ names else p ∈ g.pairs} := by
  ext ⟨x, y⟩
  exact mem_dependents_replaceDependees h node names x y

/-- The pairs that begin at the node are the wanted ones; all others stay. -/
theorem pairs_replaceDependents (h : Valid g) (node : String) (names : List String) :
    (g.replaceDependents node names).pairs
      = {p | if p.1 = node then p.2 ∈ names else p ∈ g.pairs} := by
  ext ⟨x, y⟩
  rw [← mem_pairs_flip (h.replaceDependents node names), flip_replaceDependents h,
    pairs_replaceDependees h.flip, Set.mem_ofPred_eq, Set.mem_ofPred_eq, mem_pairs_flip h]

/-- What restoring a snapshot of `g` makes of a graph, once the node of the snapshot has a slot `t`,
if no pair but those that end at the node has changed. -/
theorem exists_restored (h : Valid g) (h' : Valid g') (hnames : g.names <+: g'.names)
    (hothers : ∀ p : String × String, p.2 ≠ node → (p ∈ g'.pairs ↔ p ∈ g.pairs)) :
    ∃ k t, Grown g' k ∧ Valid k ∧ k.slot? node = some t
      ∧ (∀ x y, y ≠ t → (y ∈ row k.forward x ↔ y ∈ row g.forward x))
      ∧ Rewired k t
          (fun x => if x ∈ row g.backward t then row g.forward x else (row k.forward x).erase t)
          (row g.backward t) g.size (g'.restore (g.snapshot node)) := by
  have hgrown := grown_intern g' node
  have hk := h'.intern node
  have ht := slot?_intern g' node
  have hrestore : g'.restore (g.snapshot node)
      = (g'.intern node).2.restore (g.snapshot node) := by
    have hnode : (g.snapshot node).node = node := rfl
    have hagain : (g'.intern node).2.intern node = g'.intern node := by
      rw [intern, ht]
    rw [restore, restore, hnode, hagain]
  rw [← (hgrown.agrees hk).pairs h'] at hothers
  replace hnames := hnames.trans hgrown.names
  have hslots : ∀ x y, y ≠ (g'.intern node).1 →
      (y ∈ row (g'.intern node).2.forward x ↔ y ∈ row g.forward x) := by
    intro x y hy
    rw [← mem_slotPairs, ← mem_slotPairs, hk.mem_slotPairs_iff (List.prefix_refl _),
      h.mem_slotPairs_iff hnames]
    refine exists_congr fun a => exists_congr fun b => and_congr_right fun _ =>
      and_congr_right fun hb => hothers (a, b) ?_
    rintro rfl
    exact hy (Option.some.inj (hb.symm.trans ht))
  rw [hrestore]
  exact ⟨_, _, hgrown, hk, ht, hslots, rewired_restore h hk hnames ht hslots⟩

/-- Restoring a snapshot of `g` brings the pairs of `g` back, if no pair but those that end at the
node of the snapshot has changed. -/
theorem agrees_restore (h : Valid g) (h' : Valid g') (hnames : g.names <+: g'.names)
    (hothers : ∀ p : String × String, p.2 ≠ node → (p ∈ g'.pairs ↔ p ∈ g.pairs)) :
    Agrees g (g'.restore (g.snapshot node)) := by
  obtain ⟨k, t, hgrown, hk, -, hslots, hout⟩ := exists_restored h h' hnames hothers
  refine ⟨hout.valid, hout.names ▸ hnames.trans hgrown.names, ?_, hout.size⟩
  ext ⟨x, y⟩
  rw [mem_slotPairs, mem_slotPairs, hout.valid.mirror, h.mirror]
  by_cases hy : y = t
  · rw [hy, hout.row_backward_self]
  · rw [hout.row_backward_ne y hy, ← hk.mirror, ← h.mirror, hslots x y hy]

/-! ### The number of pairs

The size is kept beside the rows and never counted again. That it is the number of pairs is
therefore an invariant: `link` and `unlink` keep it, and all other changes are made of these.
-/

/-- A valid graph whose size is the number of its pairs of slots. -/
structure Counted (g : Graph) : Prop where
  valid : g.Valid
  encard_slotPairs : g.slotPairs.encard = g.size

theorem counted_empty : Counted empty := by
  refine ⟨valid_empty, ?_⟩
  simp [slotPairs, empty, row]

namespace Counted

/-- The size is the number of pairs of names. -/
theorem encard_pairs (h : Counted g) : g.pairs.encard = g.size := by
  have himage : g.pairs = (fun p => (g.nameAt p.1, g.nameAt p.2)) '' g.slotPairs := by
    ext ⟨a, b⟩
    rw [h.valid.mem_pairs_iff]
    constructor
    · rintro ⟨s, t, ha, hb, hst⟩
      exact ⟨(s, t), hst, Prod.ext (nameAt_of_slot? ha) (nameAt_of_slot? hb)⟩
    · rintro ⟨⟨s, t⟩, hst, ⟨⟩⟩
      exact ⟨s, t, slot?_nameAt h.valid.nodup_names (h.valid.source_lt hst),
        slot?_nameAt h.valid.nodup_names (h.valid.target_lt hst), hst⟩
  have hinj : Set.InjOn (fun p : Nat × Nat => (g.nameAt p.1, g.nameAt p.2)) g.slotPairs := by
    rintro ⟨s, t⟩ hst ⟨u, v⟩ huv heq
    rw [Prod.mk.injEq] at heq
    have hs := h.valid.nameAt_inj (h.valid.source_lt hst) (h.valid.source_lt huv) heq.1
    have ht := h.valid.nameAt_inj (h.valid.target_lt hst) (h.valid.target_lt huv) heq.2
    exact Prod.ext hs ht
  rw [himage, hinj.encard_image, h.encard_slotPairs]

/-- Graphs with the same pairs of slots and the same size are counted alike. -/
theorem of_agrees (h : Counted g) (hagrees : Agrees g g') : Counted g' :=
  ⟨hagrees.valid, by rw [hagrees.slotPairs, hagrees.size, h.encard_slotPairs]⟩

theorem seen (h : Counted g) (node : String) (names : List String) :
    Counted (g.seen node names) :=
  h.of_agrees ((grown_seen g node names).agrees (h.valid.seen node names))

/-- Turned round, a graph has as many pairs. -/
theorem flip (h : Counted g) : Counted g.flip := by
  have hswap : g.flip.slotPairs = Prod.swap '' g.slotPairs := by
    ext ⟨s, t⟩
    rw [Set.image_swap_eq_preimage_swap]
    exact (h.valid.mirror t s).symm
  refine ⟨h.valid.flip, ?_⟩
  rw [hswap, Prod.swap_injective.encard_image]
  exact h.encard_slotPairs

/-- A pair that is there is not counted again. -/
theorem link (h : Counted g) (hs : s < g.names.length) (ht : t < g.names.length) :
    Counted (g.link s t) := by
  refine ⟨h.valid.link hs ht, ?_⟩
  rw [slotPairs_link h.valid hs, size_link]
  split
  · next hst =>
    rw [Set.insert_eq_of_mem (mem_slotPairs.mpr hst), h.encard_slotPairs]
  · next hst =>
    rw [Set.encard_insert_of_notMem (mt mem_slotPairs.mp hst), h.encard_slotPairs, Nat.cast_add,
      Nat.cast_one]

/-- A pair that is not there is not counted out. -/
theorem unlink (h : Counted g) (s t : Nat) : Counted (g.unlink s t) := by
  refine ⟨h.valid.unlink s t, ?_⟩
  rw [slotPairs_unlink h.valid, size_unlink]
  split
  · next hst =>
    rw [Set.encard_sdiff_singleton_of_mem (mem_slotPairs.mpr hst), h.encard_slotPairs,
      ENat.natCast_sub, Nat.cast_one]
  · next hst =>
    rw [Set.sdiff_singleton_eq_self (mt mem_slotPairs.mp hst), h.encard_slotPairs]

/-- Along an exchange every pair that goes or comes is counted. -/
theorem exchange (h : Counted g) (ht : t < g.names.length) (old : List Nat) {wanted : List Nat}
    (hwanted : ∀ s ∈ wanted, s < g.names.length) :
    Counted (g.exchange (fun k s => k.unlink s t) (fun k s => k.link s t) old wanted) := by
  refine (exchange_preserves (P := fun k => Counted k ∧ k.names = g.names) ⟨h, rfl⟩ ?_ ?_).1
  · rintro k s ⟨hk, hnames⟩
    exact ⟨hk.unlink s t, (names_unlink k s t).trans hnames⟩
  · rintro k s hs ⟨hk, hnames⟩
    have hslt := hwanted s hs
    rw [← hnames] at ht hslt
    exact ⟨hk.link hslt ht, (names_link k s t).trans hnames⟩

theorem add (h : Counted g) (a b : String) : Counted (g.add a b) := by
  obtain ⟨s, t, ha, hb, heq⟩ := exists_link g a b
  rw [heq]
  exact (h.seen a [b]).link (lt_of_slot? ha) (lt_of_slot? hb)

theorem remove (h : Counted g) (a b : String) : Counted (g.remove a b) := by
  unfold Graph.remove
  split
  · exact h.unlink _ _
  · exact h

theorem replaceDependees (h : Counted g) (node : String) (names : List String) :
    Counted (g.replaceDependees node names) := by
  obtain ⟨t, wanted, ht, hwanted, heq⟩ := exists_exchange g node names
  rw [heq]
  exact (h.seen node names).exchange (lt_of_slot? ht) _ hwanted.lt

theorem replaceDependents (h : Counted g) (node : String) (names : List String) :
    Counted (g.replaceDependents node names) := by
  have hturned := (h.flip.replaceDependees node names).flip
  rwa [← flip_replaceDependents h.valid] at hturned

end Counted

end Worksheet.Graph
