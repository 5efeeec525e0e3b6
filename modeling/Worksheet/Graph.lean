import Worksheet.Recalculation

/-!
# Dependency graphs

A graph is a set of pairs, a dependee and a dependent that reads it. Each name has a slot, which it
is given when it is first seen and keeps for good. For each slot there are two rows of slots, its
dependents and its dependees, both in the order in which the pairs were entered; the number of pairs
is kept beside the rows.

A snapshot remembers the pairs that end at one name, with the rows in which they stand. As long as
no other pair changes, restoring it gives back both views of the graph as they were.
-/

namespace Worksheet

/-- The names, the rows of both views, and the number of pairs. -/
structure Graph where
  /-- The name in each slot. -/
  names : List String
  /-- For each slot, the slots of its dependents. -/
  forward : List (List Nat)
  /-- For each slot, the slots of its dependees. -/
  backward : List (List Nat)
  size : Nat
deriving Repr, DecidableEq

namespace Graph

/-- The graph without pairs. -/
def empty : Graph := ⟨[], [], [], 0⟩

/-- The row of a slot. -/
def row (rows : List (List Nat)) (slot : Nat) : List Nat := rows.getD slot []

/-! ### Slots -/

/-- The slot of a name, if it has been seen. -/
def slot? (g : Graph) (name : String) : Option Nat := g.names.idxOf? name

/-- The name in a slot. -/
def nameAt (g : Graph) (slot : Nat) : String := g.names.getD slot ""

/-- Gives a name the next slot. -/
def grow (g : Graph) (name : String) : Graph :=
  { g with
    names := g.names ++ [name]
    forward := g.forward ++ [[]]
    backward := g.backward ++ [[]] }

/-- The slot of a name, which is given one if it has none. -/
def intern (g : Graph) (name : String) : Nat × Graph :=
  match g.slot? name with
  | some slot => (slot, g)
  | none => (g.names.length, g.grow name)

/-- The slots of some names, each of which is given one if it has none. -/
def internAll (g : Graph) : List String → List Nat × Graph
  | [] => ([], g)
  | name :: names =>
    let (slot, g) := g.intern name
    let (slots, g) := g.internAll names
    (slot :: slots, g)

/-! ### Views -/

/-- The names that depend on a name. -/
def dependents (g : Graph) (node : String) : List String :=
  match g.slot? node with
  | some slot => (row g.forward slot).map g.nameAt
  | none => []

/-- The names that a name depends on. -/
def dependees (g : Graph) (node : String) : List String :=
  match g.slot? node with
  | some slot => (row g.backward slot).map g.nameAt
  | none => []

/-- How many names a name depends on. -/
def dependeeCount (g : Graph) (node : String) : Nat :=
  match g.slot? node with
  | some slot => (row g.backward slot).length
  | none => 0

/-- Whether any name depends on a name. -/
def hasDependents (g : Graph) (node : String) : Bool :=
  match g.slot? node with
  | some slot => !(row g.forward slot).isEmpty
  | none => false

/-- Whether a name depends on any name. -/
def hasDependees (g : Graph) (node : String) : Bool :=
  match g.slot? node with
  | some slot => !(row g.backward slot).isEmpty
  | none => false

/-- The given names and everything that depends on them, in the order of recalculation. -/
def order (g : Graph) (starts : List String) : Except String (List String) :=
  Recalculation.order g.names g.dependents starts

/-! ### Changes -/

/-- Enters the pair of two slots, unless it is there. -/
def link (g : Graph) (s t : Nat) : Graph :=
  if t ∈ row g.forward s then g
  else
    { g with
      forward := g.forward.modify s (· ++ [t])
      backward := g.backward.modify t (· ++ [s])
      size := g.size + 1 }

/-- Takes the pair of two slots out, if it is there. -/
def unlink (g : Graph) (s t : Nat) : Graph :=
  if t ∈ row g.forward s then
    { g with
      forward := g.forward.modify s (·.erase t)
      backward := g.backward.modify t (·.erase s)
      size := g.size - 1 }
  else g

/-- Enters a pair, unless it is there. -/
def add (g : Graph) (s t : String) : Graph :=
  let (s, g) := g.intern s
  let (t, g) := g.intern t
  g.link s t

/-- Takes a pair out. -/
def remove (g : Graph) (s t : String) : Graph :=
  match g.slot? s, g.slot? t with
  | some s, some t => g.unlink s t
  | _, _ => g

/-- Exchanges the slots of a row for the wanted ones: first those that are not wanted are dropped,
then the missing ones are entered. -/
def exchange (drop enter : Graph → Nat → Graph) (old wanted : List Nat) (g : Graph) : Graph :=
  wanted.eraseDups.foldl enter ((old.filter (· ∉ wanted)).foldl drop g)

/-- Replaces all that depends on a name. -/
def replaceDependents (g : Graph) (node : String) (names : List String) : Graph :=
  let (s, g) := g.intern node
  let (wanted, g) := g.internAll names
  g.exchange (fun g t => g.unlink s t) (fun g t => g.link s t) (row g.forward s) wanted

/-- Replaces all that a name depends on. -/
def replaceDependees (g : Graph) (node : String) (names : List String) : Graph :=
  let (t, g) := g.intern node
  let (wanted, g) := g.internAll names
  g.exchange (fun g s => g.unlink s t) (fun g s => g.link s t) (row g.backward t) wanted

/-! ### Snapshots -/

/-- The pairs that end at `node`. -/
structure Snapshot where
  node : String
  /-- The dependees of the node. -/
  dependees : List Nat
  /-- Each of the dependees, with its dependents. -/
  dependents : List (Nat × List Nat)
  size : Nat
deriving Repr, DecidableEq

/-- Remembers the pairs that end at a name. -/
def snapshot (g : Graph) (node : String) : Snapshot :=
  let dependees := ((g.slot? node).map (row g.backward)).getD []
  { node
    dependees
    dependents := dependees.map fun s => (s, row g.forward s)
    size := g.size }

/-- Puts the pairs of a snapshot back and drops all other pairs that end at its node. -/
def restore (g : Graph) (saved : Snapshot) : Graph :=
  let (t, g) := g.intern saved.node
  let added := (row g.backward t).filter (· ∉ saved.dependees)
  let cleared := added.foldl (fun rows s => rows.modify s (·.erase t)) g.forward
  { g with
    forward := saved.dependents.foldl (fun rows (s, targets) => rows.set s targets) cleared
    backward := g.backward.set t saved.dependees
    size := saved.size }

end Graph
end Worksheet
