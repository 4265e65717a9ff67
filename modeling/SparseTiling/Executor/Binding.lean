import SparseTiling.Chain

/-!
# Bindings

Inside a tile, a kernel works on the tile's part of its maps and of its iterations.
A binding says under which local names a loop finds them.
-/

namespace SparseTiling.Executor

/-- The local names of a loop inside a tile. -/
structure Binding where
  /-- The position of the loop in the chain. -/
  position : Nat
  loopName : String
  /-- The maps of the loop with their local names, in the order of first use. -/
  localMaps : List (String × String)
  /-- The local name of the iterations. -/
  iterations : String
  deriving DecidableEq

/-- The local name of a map in the loop at a position. -/
def localMapName (position : Nat) (map : String) : String :=
  "loc_" ++ map ++ "_" ++ toString position

/-- The local name of the iterations of the loop at a position. -/
def iterationsName (position : Nat) : String := "iterations_" ++ toString position

/-- The binding of the loop at a position. -/
def bind (l : Loop) (position : Nat) : Binding :=
  { position
    loopName := l.name
    localMaps := l.indirectMaps.map fun m => (m, localMapName position m)
    iterations := iterationsName position }

/-- The bindings of a chain, in its order. -/
def bindings (c : Chain) : List Binding := c.loops.zipIdx.map fun (l, i) => bind l i

/-- The local name for what a descriptor refers to: direct access goes through the
iterations. -/
def Binding.resolve? (b : Binding) : MapRef → Option String
  | .direct => some b.iterations
  | .map name => b.localMaps.lookup name

end SparseTiling.Executor
