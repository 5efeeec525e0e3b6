/-!
# Ordered tables

A table keeps values under names in the order in which the names came, and no name twice. Replacing
a value keeps its place; erasing a name and entering it again moves it to the end. `find?_insert` and
`find?_erase` say what is found afterwards, `names_insert` and `names_erase` in which order the names
then stand, `ext_find?` what a table is given by, and `set_insert` that an entry can be undone.
-/

namespace Worksheet

/-- Values under names, in order. No name stands twice. -/
structure Table (β : Type) where
  entries : List (String × β)
  nodup : (entries.map Prod.fst).Nodup
deriving Repr, DecidableEq

namespace Table

variable {β : Type}

/-! ### Lists of entries

The tables of the next section carry the law that no name stands twice. That entering and erasing
keep it is proved here, of plain lists.
-/

/-- Enters a value under a name: in the place of the name if it has one, else at the end. -/
def enter (name : String) (value : β) : List (String × β) → List (String × β)
  | [] => [(name, value)]
  | e :: rest => if e.1 = name then (name, value) :: rest else e :: enter name value rest

/-- A name that is new comes last; no other moves. -/
theorem map_fst_enter (name : String) (value : β) (l : List (String × β)) :
    (enter name value l).map Prod.fst
      = if name ∈ l.map Prod.fst then l.map Prod.fst else l.map Prod.fst ++ [name] := by
  induction l with
  | nil => rfl
  | cons e rest ih =>
    by_cases he : e.1 = name
    · simp [enter, he]
    · rw [enter, if_neg he, List.map_cons, ih]
      by_cases hrest : name ∈ rest.map Prod.fst
      · rw [if_pos hrest, List.map_cons, if_pos (List.mem_cons_of_mem _ hrest)]
      · have hne : name ∉ (e :: rest).map Prod.fst := by
          rw [List.map_cons, List.mem_cons]
          exact not_or.mpr ⟨Ne.symm he, hrest⟩
        rw [if_neg hrest, if_neg hne]
        rfl

/-- Entering makes no name stand twice. -/
theorem nodup_enter {l : List (String × β)} (h : (l.map Prod.fst).Nodup) (name : String)
    (value : β) : ((enter name value l).map Prod.fst).Nodup := by
  rw [map_fst_enter]
  split
  · exact h
  · next hname =>
    refine List.nodup_append.mpr ⟨h, by simp, fun a ha b hb => ?_⟩
    rw [List.mem_singleton.mp hb]
    exact fun heq => hname (heq ▸ ha)

theorem lookup_enter (name other : String) (value : β) (l : List (String × β)) :
    (enter name value l).lookup other = if other = name then some value else l.lookup other := by
  induction l with
  | nil =>
    rw [enter, List.lookup_cons]
    by_cases ho : other = name
    · simp [ho]
    · rw [if_neg ho, beq_eq_false_iff_ne.mpr ho]
  | cons e rest ih =>
    by_cases he : e.1 = name
    · rw [enter, if_pos he, List.lookup_cons, List.lookup_cons, he]
      by_cases ho : other = name
      · simp [ho]
      · rw [if_neg ho, beq_eq_false_iff_ne.mpr ho]
    · rw [enter, if_neg he, List.lookup_cons, List.lookup_cons, ih]
      by_cases ho : other = name
      · have hne : other ≠ e.1 := fun heq => he (heq.symm.trans ho)
        rw [if_pos ho, if_pos ho, beq_eq_false_iff_ne.mpr hne]
      · rw [if_neg ho, if_neg ho]

/-- What is found when another name has been taken out. -/
theorem lookup_filter_of_ne {name other : String} (h : other ≠ name) (l : List (String × β)) :
    (l.filter (fun e => !(e.1 == name))).lookup other = l.lookup other := by
  induction l with
  | nil => rfl
  | cons e rest ih =>
    by_cases he : e.1 = name
    · have hne : other ≠ e.1 := he ▸ h
      rw [List.filter_cons_of_neg (by simp [he]), List.lookup_cons, beq_eq_false_iff_ne.mpr hne, ih]
    · rw [List.filter_cons_of_pos (by simp [he]), List.lookup_cons, List.lookup_cons, ih]

theorem nodup_filter {l : List (String × β)} (h : (l.map Prod.fst).Nodup)
    (p : String × β → Bool) : ((l.filter p).map Prod.fst).Nodup :=
  h.sublist (List.filter_sublist.map _)

/-! ### Tables -/

/-- The table without entries. -/
def empty : Table β := ⟨[], List.nodup_nil⟩

/-- The names, in order. -/
def names (t : Table β) : List String := t.entries.map Prod.fst

/-- The value under a name. -/
def find? (t : Table β) (name : String) : Option β := t.entries.lookup name

/-- Enters a value under a name: in the place of the name if it has one, else at the end. -/
def insert (t : Table β) (name : String) (value : β) : Table β :=
  ⟨enter name value t.entries, nodup_enter t.nodup name value⟩

/-- Takes a name out. -/
def erase (t : Table β) (name : String) : Table β :=
  ⟨t.entries.filter (fun e => !(e.1 == name)), nodup_filter t.nodup _⟩

/-- Enters a value under a name, or takes the name out if there is none. -/
def set (t : Table β) (name : String) : Option β → Table β
  | some value => t.insert name value
  | none => t.erase name

/-! ### Names

Where names stand after a change, as the order in which the cells of a sheet are stored needs it.
-/

/-- No name of a table stands twice. -/
theorem nodup_names (t : Table β) : t.names.Nodup := t.nodup

@[simp] theorem names_empty : (empty : Table β).names = [] := rfl

/-- An entered name keeps its place, or comes last. -/
@[simp] theorem names_insert (t : Table β) (name : String) (value : β) :
    (t.insert name value).names = if name ∈ t.names then t.names else t.names ++ [name] :=
  map_fst_enter name value t.entries

/-- An erased name is gone, and the others stay in order. -/
@[simp] theorem names_erase (t : Table β) (name : String) :
    (t.erase name).names = t.names.filter (fun n => !(n == name)) := by
  simp only [names, erase, List.filter_map]
  rfl

/-! ### Values -/

/-- Nothing is found in the table without entries. -/
@[simp] theorem find?_empty (name : String) : (empty : Table β).find? name = none := rfl

/-- Nothing is found under a name if and only if it is none of the table's. -/
theorem find?_eq_none_iff (t : Table β) (name : String) :
    t.find? name = none ↔ name ∉ t.names := by
  rw [find?, List.lookup_eq_none_iff, names, List.mem_map]
  constructor
  · rintro h ⟨e, he, rfl⟩
    exact absurd (h e he) (by simp)
  · intro h e he
    rw [bne_iff_ne]
    exact fun heq => h ⟨e, he, heq.symm⟩

theorem mem_names_of_find? {t : Table β} {name : String} {value : β}
    (h : t.find? name = some value) : name ∈ t.names := by
  apply Decidable.byContradiction
  intro hmem
  rw [(find?_eq_none_iff t name).mpr hmem] at h
  cases h

/-- An entered value is found, and all others are. -/
@[simp] theorem find?_insert (t : Table β) (name other : String) (value : β) :
    (t.insert name value).find? other = if other = name then some value else t.find? other :=
  lookup_enter name other value t.entries

@[simp] theorem find?_erase (t : Table β) (name other : String) :
    (t.erase name).find? other = if other = name then none else t.find? other := by
  split
  · next ho =>
    rw [ho, find?_eq_none_iff, names_erase]
    simp
  · next ho => exact lookup_filter_of_ne ho t.entries

/-- Both at once, for a value that may be missing. -/
@[simp] theorem find?_set (t : Table β) (name other : String) (value : Option β) :
    (t.set name value).find? other = if other = name then value else t.find? other := by
  cases value with
  | none => exact find?_erase t name other
  | some value => exact find?_insert t name other value

/-! ### What a table is given by

Two tables are compared by what they show: their names in order, and what is found under each. The
list of entries is not looked at from outside.
-/

/-- Each entry is what is found under its name, since no name stands twice. -/
theorem find?_of_mem {t : Table β} {name : String} {value : β} (h : (name, value) ∈ t.entries) :
    t.find? name = some value := by
  obtain ⟨entries, hnodup⟩ := t
  induction entries with
  | nil => cases h
  | cons e rest ih =>
    obtain ⟨he, hrest⟩ := List.nodup_cons.mp hnodup
    rcases List.mem_cons.mp h with rfl | h
    · exact List.lookup_cons_self
    · have hne : name ≠ e.1 := by
        rintro rfl
        exact he (List.mem_map.mpr ⟨_, h, rfl⟩)
      rw [find?, List.lookup_cons, beq_eq_false_iff_ne.mpr hne]
      exact ih hrest h

/-- The entries are the names with what is found under them. -/
theorem map_entries (t : Table β) :
    t.entries.map (fun e => (e.1, some e.2)) = t.names.map fun name => (name, t.find? name) := by
  rw [names, List.map_map]
  apply List.map_congr_left
  intro e he
  rw [Function.comp_apply, find?_of_mem he]

/-- A table is given by its names, in order, and what is found under them. -/
theorem ext_find? {t t' : Table β} (hnames : t.names = t'.names)
    (h : ∀ name, t.find? name = t'.find? name) : t = t' := by
  have hentries : t.entries.map (fun e => (e.1, some e.2))
      = t'.entries.map fun e => (e.1, some e.2) := by
    rw [map_entries, map_entries, hnames, funext h]
  have hinjective : ∀ e e' : String × β, (e.1, some e.2) = (e'.1, some e'.2) → e = e' := by
    rintro ⟨_, _⟩ ⟨_, _⟩ ⟨⟩
    rfl
  obtain ⟨entries, _⟩ := t
  obtain ⟨entries', _⟩ := t'
  congr 1
  exact List.map_inj_right hinjective |>.mp hentries

/-! ### Undoing an entry -/

/-- Entering what stands under a name already changes nothing. -/
theorem insert_of_find? {t : Table β} {name : String} {value : β}
    (h : t.find? name = some value) : t.insert name value = t := by
  apply ext_find?
  · rw [names_insert, if_pos (mem_names_of_find? h)]
  · intro other
    rw [find?_insert]
    split
    · next ho => rw [ho, h]
    · rfl

/-- An entry is undone by what stood under its name before. -/
theorem set_insert (t : Table β) (name : String) (value : β) :
    (t.insert name value).set name (t.find? name) = t := by
  apply ext_find?
  · cases hfind : t.find? name with
    | some before =>
      have hmem := mem_names_of_find? hfind
      rw [set, names_insert, names_insert, if_pos hmem, if_pos hmem]
    | none =>
      have hmem := (find?_eq_none_iff t name).mp hfind
      rw [set, names_erase, names_insert, if_neg hmem, List.filter_append]
      have hnames : t.names.filter (fun n => !(n == name)) = t.names := by
        refine List.filter_eq_self.mpr fun n hn => ?_
        simp only [Bool.not_eq_true', beq_eq_false_iff_ne]
        rintro rfl
        exact hmem hn
      simp [hnames]
  · intro other
    rw [find?_set, find?_insert]
    split
    · next ho => rw [ho]
    · rfl

end Table
end Worksheet
