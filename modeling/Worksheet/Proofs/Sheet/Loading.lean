import Worksheet.Proofs.Sheet.Acceptance
import Worksheet.Proofs.Sheet.History

/-!
# Loading in any order

The cells of a saved sheet are set one after the other, so a formula may be set before the cells
that it reads. Whether all can be set, and what sheet they make, does not depend on their order: the
graph of a sheet that is being loaded is always a part of what the saved formulas mention, and the
values are those that the contents have in the end.

* `Loadable`: which saved sheets can be loaded.
* `Entered`: a sheet in which some of the saved cells have been set, with its step and its run.
* `load_order_independent`: the loadable sheets are loaded, in any order as the same sheet.
-/

namespace Worksheet.Sheet

open Relation (TransGen)
open Worksheet.Recalculation (Leads)

/-- Among the entries is one for the first cell, with a formula that mentions the second. -/
def EntryReads (naming : Naming) (entries : List (String × String)) (a b : String) : Prop :=
  ∃ e ∈ entries, naming.normalize e.1 = a
    ∧ ∃ f, Content.parse naming e.2 = .ok (some (.formula f)) ∧ f.Mentions b

/-- A saved sheet that can be loaded: it has the version that is expected, each name names a cell,
each text can be read, and the formulas do not mention each other in a cycle. -/
structure Loadable (naming : Naming) (version : String) (saved : Saved String) : Prop where
  version : saved.version = version
  named : ∀ e ∈ saved.cells, ∃ n, Names naming (.text e.1) n
  read : ∀ e ∈ saved.cells, ∃ content, Content.parse naming e.2 = .ok content
  acyclic : ∀ a, ¬ TransGen (EntryReads naming saved.cells) a a

/-- An entry gives a content to the cell `n`. -/
def Gives (naming : Naming) (e : String × String) (n : String) (content : Option Content) : Prop :=
  Names naming (.text e.1) n ∧ Content.parse naming e.2 = .ok content

/-- A sheet in which some entries have been set. -/
structure Entered (naming : Naming) (entries : List (String × String)) (sheet : Sheet) : Prop where
  consistent : sheet.Consistent
  given : ∀ e ∈ entries, ∃ n content, Gives naming e n content
  contents : ∀ n content,
    contentOf sheet.cells n = some content ↔ ∃ e ∈ entries, Gives naming e n (some content)
  naming : sheet.naming = naming

variable {naming : Naming} {version : String} {entries rest : List (String × String)}
  {sheet : Sheet}

/-- The cell is the one whose name is the normal form. -/
theorem Gives.normalize_eq {e : String × String} {n : String} {content : Option Content}
    (h : Gives naming e n content) : naming.normalize e.1 = n := by
  obtain ⟨⟨s, hs, -, hn, -⟩, -⟩ := h
  cases hs
  exact hn

theorem entered_empty (naming : Naming) (version : String) :
    Entered naming [] (empty naming version) where
  consistent := consistent_empty naming version
  naming := rfl
  given e he := by cases he
  contents n content := by
    constructor
    · intro h
      cases h
    · rintro ⟨e, he, -⟩
      cases he

/-- With more entries there are no fewer reads. -/
theorem EntryReads.append_left {a b : String} (h : EntryReads naming entries a b) :
    EntryReads naming (entries ++ rest) a b := by
  obtain ⟨e, he, hreads⟩ := h
  exact ⟨e, List.mem_append_left _ he, hreads⟩

/-- Where no two entries give to one cell, the next one gives to a cell that has nothing yet. -/
theorem fresh_of_nodup {e : String × String}
    (h : ((entries ++ e :: rest).map fun e => naming.normalize e.1).Nodup) :
    naming.normalize e.1 ∉ entries.map fun e => naming.normalize e.1 := by
  rw [List.map_append, List.map_cons, List.nodup_middle, List.nodup_cons] at h
  intro he
  exact h.1 (List.mem_append_left _ he)

namespace Entered

/-- The formulas of the sheet are those of the entries. -/
theorem reads_iff (h : Entered naming entries sheet) {a b : String} :
    sheet.Reads a b ↔ EntryReads naming entries a b := by
  constructor
  · rintro ⟨f, hf, hb⟩
    obtain ⟨e, he, hgives⟩ := (h.contents a _).mp hf
    exact ⟨e, he, hgives.normalize_eq, f, hgives.2, hb⟩
  · rintro ⟨e, he, rfl, f, hf, hb⟩
    obtain ⟨n, content, hgives⟩ := h.given e he
    obtain rfl := hgives.normalize_eq
    exact ⟨f, (h.contents _ _).mpr ⟨e, he, hgives.1, hf⟩, hb⟩

/-- What has been entered is free of cycles. -/
theorem acyclic (h : Entered naming entries sheet) (a : String) :
    ¬ TransGen (EntryReads naming entries) a a := by
  have hreads : sheet.Reads = EntryReads naming entries := by
    funext a b
    exact propext h.reads_iff
  rw [← hreads, h.consistent.transGen_reads_iff]
  exact h.consistent.acyclic a

/-- An entry is accepted with what it gives. -/
theorem accept_iff (h : Entered naming entries sheet) {e : String × String} {n : String}
    {content : Option Content} :
    sheet.accept (.text e.1) (some e.2) = .ok (n, content) ↔ Gives naming e n content := by
  rw [accept_eq_ok, h.naming, ← names_iff_cell?]
  simp [Gives]

/-- One entry more has been set. -/
theorem computed (h : Entered naming entries sheet) {e : String × String} {n : String}
    {content : Option Content} (hgives : Gives naming e n content)
    (hfresh : n ∉ entries.map fun e => naming.normalize e.1) {order : List String}
    (horder : (sheet.assign n content).graph.order [n] = .ok order) :
    Entered naming (entries ++ [e]) ((sheet.assign n content).computed order) := by
  have haccept := h.accept_iff.mpr hgives
  refine ⟨h.consistent.computed haccept horder, ?_, ?_, h.naming⟩
  · intro e' he'
    rcases List.mem_append.mp he' with he' | he'
    · exact h.given e' he'
    · obtain rfl := List.mem_singleton.mp he'
      exact ⟨n, content, hgives⟩
  · intro a c
    rw [contentOf_computed]
    simp only [List.mem_append, List.mem_singleton]
    by_cases ha : a = n
    · -- The new entry is the only one for its cell.
      subst ha
      rw [if_pos rfl]
      constructor
      · rintro rfl
        exact ⟨e, .inr rfl, hgives⟩
      · rintro ⟨e', he' | rfl, hgives'⟩
        · exact absurd (List.mem_map.mpr ⟨e', he', hgives'.normalize_eq⟩) hfresh
        · exact Except.ok.inj (hgives.2.symm.trans hgives'.2)
    · rw [if_neg ha, h.contents]
      constructor
      · rintro ⟨e', he', hgives'⟩
        exact ⟨e', .inl he', hgives'⟩
      · rintro ⟨e', he' | rfl, hgives'⟩
        · exact ⟨e', he', hgives'⟩
        · exact absurd (hgives'.normalize_eq.symm.trans hgives.normalize_eq) ha

/-- An entry that is set gives a content to a cell. -/
theorem of_enter (h : Entered naming entries sheet) {e : String × String} {after : Sheet}
    (hfresh : naming.normalize e.1 ∉ entries.map fun e => naming.normalize e.1)
    (henter : sheet.enter (e.1, some e.2) = .ok after) : Entered naming (entries ++ [e]) after := by
  obtain ⟨n, content, order, haccept, horder, rfl⟩ := (enter_eq_ok h.consistent).mp henter
  have hgives := h.accept_iff.mp haccept
  exact h.computed hgives (hgives.normalize_eq ▸ hfresh) horder

/-- What leads to what when an entry is taken in is what the entries read. -/
theorem entryReads_of_leads (h : Entered naming entries sheet) {e : String × String} {n : String}
    {content : Option Content} (hgives : Gives naming e n content) {a b : String}
    (hab : Leads (sheet.assign n content).graph.dependents b a) :
    EntryReads naming (entries ++ [e]) a b := by
  rw [Leads, dependents_assign h.consistent.valid] at hab
  split at hab
  · next ha =>
    obtain ⟨f, rfl, hmentions⟩ := Consistent.mem_readsFor.mp hab
    exact ⟨e, List.mem_append_right _ List.mem_cons_self, hgives.normalize_eq.trans ha.symm, f,
      hgives.2, hmentions⟩
  · exact (h.reads_iff.mp (h.consistent.reads_iff.mpr hab)).append_left

/-- An entry can be set if it gives a content to a cell, and the entries up to it are free of
cycles. -/
theorem exists_enter (h : Entered naming entries sheet) {e : String × String} {n : String}
    {content : Option Content} (hgives : Gives naming e n content)
    (hacyclic : ∀ a, ¬ TransGen (EntryReads naming (entries ++ [e])) a a) :
    ∃ after, sheet.enter (e.1, some e.2) = .ok after := by
  have hfree : ∀ a, ¬ TransGen (Leads (sheet.assign n content).graph.dependents) a a := by
    intro a ha
    apply hacyclic a
    rw [← Relation.transGen_swap]
    exact TransGen.mono (fun _ _ => h.entryReads_of_leads hgives) a a ha
  obtain ⟨order, horder⟩ := h.consistent.valid_assign.exists_order hfree [n]
  have haccept := h.accept_iff.mpr hgives
  exact ⟨_, (enter_eq_ok h.consistent).mpr ⟨n, content, order, haccept, horder, rfl⟩⟩

/-- Entries that are set one after the other are set in the sheet that comes of it. -/
theorem of_foldlM (h : Entered naming entries sheet)
    (hnodup : ((entries ++ rest).map fun e => naming.normalize e.1).Nodup) {after : Sheet}
    (henter : (rest.map fun e => (e.1, some e.2)).foldlM Sheet.enter sheet = .ok after) :
    Entered naming (entries ++ rest) after := by
  induction rest generalizing entries sheet with
  | nil =>
    cases henter
    rwa [List.append_nil]
  | cons e rest ih =>
    rw [List.map_cons, List.foldlM_cons, bind_eq_ok] at henter
    obtain ⟨middle, hfirst, hrest⟩ := henter
    have hsplit : entries ++ e :: rest = entries ++ [e] ++ rest := by simp
    have hfresh := (fresh_of_nodup hnodup)
    rw [hsplit] at hnodup ⊢
    exact ih (h.of_enter hfresh hfirst) hnodup hrest

/-- Entries that give contents and are free of cycles can be set one after the other. -/
theorem exists_foldlM (h : Entered naming entries sheet)
    (hnodup : ((entries ++ rest).map fun e => naming.normalize e.1).Nodup)
    (hrest : ∀ e ∈ rest, ∃ n content, Gives naming e n content)
    (hacyclic : ∀ a, ¬ TransGen (EntryReads naming (entries ++ rest)) a a) :
    ∃ after, (rest.map fun e => (e.1, some e.2)).foldlM Sheet.enter sheet = .ok after := by
  induction rest generalizing entries sheet with
  | nil => exact ⟨sheet, rfl⟩
  | cons e rest ih =>
    obtain ⟨n, content, hgives⟩ := hrest e List.mem_cons_self
    have hsplit : entries ++ e :: rest = entries ++ [e] ++ rest := by simp
    have hfresh := fresh_of_nodup hnodup
    rw [hsplit] at hnodup hacyclic
    have hpart : ∀ a, ¬ TransGen (EntryReads naming (entries ++ [e])) a a := by
      intro a ha
      apply hacyclic a
      exact TransGen.mono (fun _ _ => EntryReads.append_left) a a ha
    obtain ⟨middle, hfirst⟩ := h.exists_enter hgives hpart
    obtain ⟨after, hlast⟩ := ih (h.of_enter hfresh hfirst) hnodup
      (fun e he => hrest e (List.mem_cons_of_mem _ he)) hacyclic
    refine ⟨after, ?_⟩
    rw [List.map_cons, List.foldlM_cons, bind_eq_ok]
    exact ⟨middle, hfirst, hlast⟩

end Entered

/-! ### Loading

A saved sheet is loadable if and only if all its entries can be set, by induction over them.
Loadability does not mention their order, and what has been entered is given by its contents.
-/

/-- A saved sheet that is loaded has all its entries set. -/
theorem entered_of_load {saved : Saved String}
    (hnodup : (saved.cells.map fun e => naming.normalize e.1).Nodup)
    (h : load naming version (saved.map some) = .ok sheet) : Entered naming saved.cells sheet := by
  obtain ⟨-, entered, hentered, rfl⟩ := load_eq_ok.mp h
  have hall : Entered naming ([] ++ saved.cells) entered :=
    (entered_empty naming version).of_foldlM hnodup hentered
  exact ⟨hall.consistent.unchanged, hall.given, hall.contents, hall.naming⟩

/-- The saved sheets that are loaded are the loadable ones. -/
theorem exists_load_iff {saved : Saved String}
    (hnodup : (saved.cells.map fun e => naming.normalize e.1).Nodup) :
    (∃ sheet, load naming version (saved.map some) = .ok sheet)
      ↔ Loadable naming version saved := by
  constructor
  · rintro ⟨sheet, h⟩
    have hentered := entered_of_load hnodup h
    refine ⟨(load_eq_ok.mp h).1, ?_, ?_, hentered.acyclic⟩
    · intro e he
      obtain ⟨n, content, hname, -⟩ := hentered.given e he
      exact ⟨n, hname⟩
    · intro e he
      obtain ⟨n, content, -, hparse⟩ := hentered.given e he
      exact ⟨content, hparse⟩
  · intro h
    have hgiven : ∀ e ∈ saved.cells, ∃ n content, Gives naming e n content := by
      intro e he
      obtain ⟨n, hname⟩ := h.named e he
      obtain ⟨content, hparse⟩ := h.read e he
      exact ⟨n, content, hname, hparse⟩
    obtain ⟨after, hafter⟩ :=
      (entered_empty naming version).exists_foldlM hnodup hgiven h.acyclic
    exact ⟨_, load_eq_ok.mpr ⟨h.version, after, hafter, rfl⟩⟩

/-- Whether a saved sheet can be loaded does not depend on the order of its cells. -/
theorem Loadable.perm {saved saved' : Saved String} (h : Loadable naming version saved)
    (hversion : saved.version = saved'.version) (hcells : saved.cells.Perm saved'.cells) :
    Loadable naming version saved' := by
  have hreads : EntryReads naming saved'.cells = EntryReads naming saved.cells := by
    funext a b
    simp only [EntryReads, hcells.mem_iff]
  refine ⟨hversion ▸ h.version, ?_, ?_, hreads ▸ h.acyclic⟩
  · intro e he
    exact h.named e (hcells.mem_iff.mpr he)
  · intro e he
    exact h.read e (hcells.mem_iff.mpr he)

/-- Sheets in which the same entries have been set have the same contents. -/
theorem Entered.peers {sheet' : Sheet} {entries' : List (String × String)}
    (h : Entered naming entries sheet) (h' : Entered naming entries' sheet')
    (hperm : entries.Perm entries') : Peers sheet sheet' where
  left := h.consistent
  right := h'.consistent
  naming := h.naming.trans h'.naming.symm
  contents n := by
    apply Option.ext
    intro content
    rw [h.contents, h'.contents]
    simp only [hperm.mem_iff]

/-! ### Faults -/

/-- An entry that cannot be set is a fault of what was saved. -/
theorem ofSaved_of_enter {e : String × String} {fault : LoadFault}
    (h : sheet.enter (e.1, some e.2) = .error fault) : fault.ofSaved = true := by
  obtain ⟨name, text⟩ := e
  unfold enter at h
  split at h
  · cases h
  · next refusal after heq =>
    cases h
    cases refusal with
    | missingContent =>
      -- A text is not missing, so nothing can be refused for that.
      unfold setContents at heq
      split at heq
      · next refusal haccept =>
        cases heq
        cases refused_of_accept haccept
      · dsimp only at heq
        split at heq <;> cases heq
    | invalidName name => rfl
    | formula fault => rfl
    | circular c => rfl

/-- Where texts are loaded, every fault lies in what is saved. -/
theorem ofSaved_of_load {saved : Saved String} {fault : LoadFault}
    (h : load naming version (saved.map some) = .error fault) : fault.ofSaved = true := by
  have hfold : ∀ (entries : List (String × String)) (sheet : Sheet),
      (entries.map fun e => (e.1, some e.2)).foldlM Sheet.enter sheet = .error fault →
        fault.ofSaved = true := by
    intro entries
    induction entries with
    | nil =>
      intro sheet h
      cases h
    | cons e entries ih =>
      intro sheet h
      rw [List.map_cons, List.foldlM_cons] at h
      cases henter : sheet.enter (e.1, some e.2) with
      | ok middle =>
        rw [henter] at h
        exact ih middle h
      | error fault' =>
        rw [henter] at h
        cases h
        exact ofSaved_of_enter henter
  unfold load at h
  split at h
  · cases hentered : (saved.map some).cells.foldlM enter (empty naming version) with
    | ok entered =>
      rw [hentered] at h
      cases h
    | error fault' =>
      rw [hentered] at h
      cases h
      exact hfold _ _ hentered
  · cases h
    rfl

/-- Loading does not depend on the order of the saved cells. If no two of their names have the same
normal form, then the loadable sheets are loaded; and two saved sheets that differ in the order of
their cells are both loaded, as sheets that show the same, or both at fault. -/
theorem load_order_independent {naming : Naming} {version : String} {saved : Saved String}
    (hnodup : (saved.cells.map fun e => naming.normalize e.1).Nodup) :
    ((∃ sheet, load naming version (saved.map some) = .ok sheet) ↔ Loadable naming version saved)
      ∧ ∀ first second : List (String × String), first.Perm saved.cells → second.Perm saved.cells →
        (∃ sheet sheet', load naming version (Saved.map some ⟨saved.version, first⟩) = .ok sheet
          ∧ load naming version (Saved.map some ⟨saved.version, second⟩) = .ok sheet'
          ∧ Agree sheet sheet')
        ∨ ∃ fault fault', load naming version (Saved.map some ⟨saved.version, first⟩) = .error fault
          ∧ load naming version (Saved.map some ⟨saved.version, second⟩) = .error fault'
          ∧ fault.ofSaved = true ∧ fault'.ofSaved = true := by
  refine ⟨exists_load_iff hnodup, ?_⟩
  intro first second hfirst hsecond
  have hnodup₁ := (hfirst.map fun e => naming.normalize e.1).nodup_iff.mpr hnodup
  have hnodup₂ := (hsecond.map fun e => naming.normalize e.1).nodup_iff.mpr hnodup
  have hperm := hfirst.trans hsecond.symm
  have hsame : (∃ sheet, load naming version (Saved.map some ⟨saved.version, first⟩) = .ok sheet)
      ↔ ∃ sheet, load naming version (Saved.map some ⟨saved.version, second⟩) = .ok sheet := by
    rw [exists_load_iff hnodup₁, exists_load_iff hnodup₂]
    exact ⟨fun h => h.perm rfl hperm, fun h => h.perm rfl hperm.symm⟩
  cases hload : load naming version (Saved.map some ⟨saved.version, first⟩) with
  | ok sheet =>
    obtain ⟨sheet', hload'⟩ := hsame.mp ⟨sheet, hload⟩
    have hpeers := (entered_of_load hnodup₁ hload).peers (entered_of_load hnodup₂ hload') hperm
    exact .inl ⟨sheet, sheet', rfl, hload', hpeers.agree⟩
  | error fault =>
    cases hload' : load naming version (Saved.map some ⟨saved.version, second⟩) with
    | ok sheet' =>
      obtain ⟨sheet, hsheet⟩ := hsame.mpr ⟨sheet', hload'⟩
      cases hload.symm.trans hsheet
    | error fault' =>
      exact .inr ⟨fault, fault', rfl, rfl, ofSaved_of_load hload, ofSaved_of_load hload'⟩

/-- A formula may be loaded before or after the cell that it reads. -/
theorem load_order_independent_reference :
    ∃ sheet sheet', load .standard "1" ⟨"1", [("B1", some "=A1"), ("A1", some "x")]⟩ = .ok sheet
      ∧ load .standard "1" ⟨"1", [("A1", some "x"), ("B1", some "=A1")]⟩ = .ok sheet'
      ∧ Agree sheet sheet' := by
  let saved : Saved String := ⟨"1", [("B1", "=A1"), ("A1", "x")]⟩
  have hnodup : (saved.cells.map fun e => Naming.standard.normalize e.1).Nodup := by decide
  obtain ⟨-, hperm⟩ := @load_order_independent .standard "1" saved hnodup
  rcases hperm saved.cells saved.cells.reverse (.refl _) (List.reverse_perm _) with
    hloaded | ⟨fault, -, hfault, -⟩
  · exact hloaded
  · have hloaded : (load .standard "1" (saved.map some)).isOk = true := by cbv
    rw [hfault] at hloaded
    cases hloaded

end Worksheet.Sheet
