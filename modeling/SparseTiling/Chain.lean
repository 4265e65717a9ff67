import SparseTiling.Loop
import SparseTiling.Mesh.Map
import SparseTiling.Mesh.Nesting

/-!
# Loop chains

A chain is a sequence of loops over common sets and maps, and the unit for which
code is generated. It refers to sets and maps by their bare names.

* `Chain.declareSets`, `Chain.declareMaps`, `Chain.declareLoops`,
  `Chain.declarePartitionings`: declarations, each replacing the previous one. A
  refused declaration leaves no chain behind, so the old one stays in force.
* `Chain.seed`: the loop from which tiles are derived.
* `Chain.ensureConstructed`, `Chain.checkReferences`: what generation asks for.
-/

namespace SparseTiling

/-- A sequence of loops over common sets and maps. -/
structure Chain where
  name : String
  /-- The sets, supersets before subsets. -/
  sets : List MeshSet := []
  maps : List MeshMap := []
  /-- The loops in the order in which they run. -/
  loops : List Loop := []
  partitionings : List Partitioning := []
  /-- The loop chosen as seed. -/
  chosenSeed : Option Nat := none
  /-- The average size of a tile. -/
  tileSize : UInt32 := 32
  /-- The number of the process. -/
  rank : UInt32 := 0
  deriving DecidableEq

namespace Chain

/-- The empty chain with a raw name. -/
def new (name : String) : Chain := { name := Name.bare name }

/-- Names from position `position` on have to be nonempty and, where `twice` gives
an error for it, different from each other and from those `seen` before. -/
def checkNames (item : Item) (twice : String → Option Error) (position : Nat)
    (seen : List String) : List String → Except Error Unit
  | [] => .ok ()
  | name :: rest =>
    if name = "" then .error (.unnamed item position)
    else match twice name, decide (name ∈ seen) with
      | some error, true => .error error
      | _, _ => checkNames item twice (position + 1) (name :: seen) rest

/-- Declare the sets, under raw names. -/
def declareSets (c : Chain) (sets : List MeshSet) : Except Error Chain := do
  let sets := sets.map (·.bare)
  checkNames .set (fun name => some (.duplicateSet name)) 0 [] (sets.map (·.name))
  return { c with sets := ← Nesting.orderSets sets }

/-- Declare the maps, under raw names. -/
def declareMaps (c : Chain) (maps : List MeshMap) : Except Error Chain := do
  let maps := maps.map (·.bare)
  checkNames .map (fun name => some (.duplicateMap name)) 0 [] (maps.map (·.name))
  return { c with maps }

/-- Declare the loops, under raw names. Loops may share a name. -/
def declareLoops (c : Chain) (loops : List Loop) : Except Error Chain := do
  let loops := loops.map (·.bare)
  checkNames .loop (fun _ => none) 0 [] (loops.map (·.name))
  return { c with loops }

/-- Declare the partitionings, under raw names. -/
def declarePartitionings (c : Chain) (partitionings : List Partitioning) : Chain :=
  { c with partitionings := partitionings.map (·.bare) }

/-- A seed has to be one of the loops, if there are any yet. -/
def checkSeed (c : Chain) (seed : Int) : Except Error Nat :=
  if seed < 0 ∨ (c.loops ≠ [] ∧ (c.loops.length : Int) ≤ seed) then
    .error (.seedLoop seed c.loops.length)
  else .ok seed.toNat

/-- Choose the seed loop. -/
def chooseSeed (c : Chain) (seed : Int) : Except Error Chain := do
  return { c with chosenSeed := some (← c.checkSeed seed) }

/-- The seed loop: the chosen one, or the one in the middle. -/
def seed (c : Chain) : Except Error Nat :=
  let seed := c.chosenSeed.getD (c.loops.length / 2)
  if seed < c.loops.length then .ok seed else .error (.seedLoop seed c.loops.length)

/-- Code can be generated once there are sets and loops. -/
def isConstructed (c : Chain) : Bool := !c.sets.isEmpty && !c.loops.isEmpty

def ensureConstructed (c : Chain) : Except Error Unit :=
  if c.isConstructed then .ok () else .error (.notConstructed c.name)

def hasSet (c : Chain) (name : String) : Bool := c.sets.any fun s => s.name = name

def hasSets (c : Chain) (names : List String) : Bool := names.all c.hasSet

def findMap? (c : Chain) (name : String) : Option MeshMap := c.maps.find? fun m => m.name = name

/-- Both sets of a map have to be declared. -/
def checkMap (c : Chain) (m : MeshMap) : Except Error Unit := do
  unless c.hasSet m.source do throw (.unknownMapSet m.name m.source)
  unless c.hasSet m.target do throw (.unknownMapSet m.name m.target)

/-- The map of a descriptor has to be declared. -/
def checkDescriptor (c : Chain) (loop : String) (d : Descriptor) : Except Error Unit :=
  match d.map with
  | .direct => .ok ()
  | .map name =>
    if (c.findMap? name).isSome then .ok () else .error (.unknownLoopMap loop name)

/-- The iteration set and the maps of a loop have to be declared. -/
def checkLoop (c : Chain) (l : Loop) (position : Nat) : Except Error Unit := do
  let loop := l.runtimeName position
  unless c.hasSet l.set do throw (.unknownLoopSet loop l.set)
  l.descriptors.forM (c.checkDescriptor loop)

/-- **Every name refers to something.** Maps are checked before loops, each in
their order. -/
def checkReferences (c : Chain) : Except Error Unit := do
  c.maps.forM c.checkMap
  c.loops.zipIdx.forM fun (l, i) => c.checkLoop l i

end Chain

end SparseTiling
