import SparseTiling.Error
import SparseTiling.Mesh.Set

/-!
# Order of nested sets

Emitted code declares every set as a variable, and a subset mentions the variable
of its superset, so supersets come first. Sets are ordered by their depth of
nesting; sets of one depth keep the order in which they were declared.

A depth-first search over the links from supersets to subsets visits the sets.
Listed by the time they were left, the last one first, every set follows its
superset, unless the links form a cycle.

* `superset?`, `links`: what a set's superset name refers to.
* `finishOrder`: the search.
* `misplaced`: the superset of the first set that precedes it.
* `depths`: depths, filled in along the search order.
* `orderSets`: the order of a list of sets.
-/

namespace SparseTiling.Nesting

/-- The position of the last set with a name. -/
def superset? (name : String) : List MeshSet → Option Nat
  | [] => none
  | s :: rest =>
    match superset? name rest with
    | some i => some (i + 1)
    | none => if s.name = name then some 0 else none

/-- The position of each set's superset, or the first set that names an unknown
one. -/
def links (sets : List MeshSet) : Except Error (List (Option Nat)) :=
  sets.mapM fun s =>
    match s.superset with
    | none => pure none
    | some name =>
      match superset? name sets with
      | some i => pure (some i)
      | none => throw (.unknownSuperset s.name name)

/-- The superset of a position. -/
def parent (up : List (Option Nat)) (i : Nat) : Option Nat := (up[i]?).join

/-- The subsets of a position, the one declared last first. -/
def subsets (up : List (Option Nat)) (i : Nat) : List Nat :=
  ((up.zipIdx.filter fun l => l.1 == some i).map (·.2)).reverse

/-- The search. A position on top of the stack that is still `fresh` is entered:
its fresh subsets go on top of it, the last one topmost. Otherwise it is left, and
joins `done` if it is not there yet. A set that is its own superset is reported
when it is entered. -/
def search (up : List (Option Nat)) (fresh stack done : List Nat) : Except Nat (List Nat) :=
  match stack with
  | [] => .ok done
  | i :: below =>
    if _ : i ∈ fresh then
      if parent up i = some i then .error i
      else
        let rest := fresh.erase i
        let next := (subsets up i).filter fun k => k ∈ rest
        search up rest (next.reverse ++ i :: below) done
    else search up fresh below (if i ∈ done then done else i :: done)
termination_by (fresh.length, stack.length)
decreasing_by
  · rename_i h _
    have := List.length_erase_of_mem h
    have := List.length_pos_of_mem h
    exact Prod.Lex.left _ _ (by omega)
  · exact Prod.Lex.right _ (by simp)

/-- All positions by the time the search left them, the last one first. -/
def finishOrder (up : List (Option Nat)) : Except Nat (List Nat) :=
  search up (List.range up.length) (List.range up.length) []

/-- The superset of the first position in the order that does not follow it. -/
def misplaced (up : List (Option Nat)) (seen : List Nat) : List Nat → Option Nat
  | [] => none
  | i :: rest =>
    match parent up i with
    | some p => if p ∈ seen then misplaced up (i :: seen) rest else some p
    | none => misplaced up (i :: seen) rest

/-- Depths along an order in which supersets come first: one more than that of
the superset. -/
def depths (up : List (Option Nat)) (order : List Nat) : List Nat :=
  order.foldl
    (fun depth i =>
      depth.set i (match parent up i with
        | some p => depth[p]?.getD 0 + 1
        | none => 0))
    (List.replicate up.length 0)

/-- The name of the set at a position. -/
def nameAt (sets : List MeshSet) (i : Nat) : String := ((sets[i]?).map MeshSet.name).getD ""

/-- An order of the positions in which supersets come first, or a position on a
cycle. -/
def sortPositions (up : List (Option Nat)) : Except Nat (List Nat) := do
  let order ← finishOrder up
  match misplaced up [] order with
  | some p => throw p
  | none => return order

/-- **The order of declaration:** by depth of nesting, ties as declared. -/
def orderSets (sets : List MeshSet) : Except Error (List MeshSet) := do
  let up ← links sets
  match sortPositions up with
  | .error i => throw (.supersetCycle (nameAt sets i))
  | .ok order =>
    let depth := depths up order
    let rank (i : Nat) := depth[i]?.getD 0
    return (sets.zipIdx.mergeSort fun a b => rank a.2 ≤ rank b.2).map (·.1)

end SparseTiling.Nesting
