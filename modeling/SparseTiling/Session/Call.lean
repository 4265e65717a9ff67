import SparseTiling.Session

/-!
# Calls on a session

The calls with which a host program builds a chain and its settings, as data. A
call is accepted and gives a new state, or is refused and leaves the old one.

* `Chain.Call`, `Draft.Call`, `Session.Call`: the calls.
* `Chain.apply`, `Draft.apply`, `Session.apply`: their effect.
* `Session.after`: the state after a call, accepted or not.
-/

namespace SparseTiling

/-- Calls that concern the chain. -/
inductive Chain.Call
  | declareSets (sets : List MeshSet)
  | declareMaps (maps : List MeshMap)
  | declareLoops (loops : List Loop)
  | declarePartitionings (partitionings : List Partitioning)
  | setTileSize (size : UInt32)
  | setRank (rank : UInt32)
  | chooseSeed (seed : Int)

/-- The effect of a call on a chain. -/
def Chain.apply (c : Chain) : Chain.Call → Except Error Chain
  | .declareSets sets => c.declareSets sets
  | .declareMaps maps => c.declareMaps maps
  | .declareLoops loops => c.declareLoops loops
  | .declarePartitionings ps => .ok (c.declarePartitionings ps)
  | .setTileSize size => .ok { c with tileSize := size }
  | .setRank rank => .ok { c with rank }
  | .chooseSeed seed => c.chooseSeed seed

/-- The chain after a call; a refused call leaves it as it was. -/
def Chain.after (c : Chain) (call : Chain.Call) : Chain := (c.apply call).toOption.getD c

/-- Calls that concern the settings. -/
inductive Draft.Call
  | setExecution (mode : ExecutionMode)
  | readExecution (text : String)
  | setColoring (mode : ColoringMode)
  | readColoring (text : String)
  | setPartitioning (mode : PartitionMode)
  | readPartitioning (text : String)
  | setDebug (mode : DebugMode) (field : Option CoordinateField)
  | readDebug (text : String) (field : Option CoordinateField)
  | setTiming (on : Bool)
  | setMeshMaps (maps : List MeshMap)
  | setIgnoreWar (on : Bool)
  | setPrefetch (distance : Int)
  | configure (hints : Hints)

/-- The effect of a call on settings under construction. -/
def Draft.apply (d : Draft) : Draft.Call → Except Error Draft
  | .setExecution mode => .ok (d.setExecution mode)
  | .readExecution text => .ok (d.readExecution text)
  | .setColoring mode => .ok (d.setColoring mode)
  | .readColoring text => .ok (d.readColoring text)
  | .setPartitioning mode => .ok (d.setPartitioning mode)
  | .readPartitioning text => .ok (d.readPartitioning text)
  | .setDebug mode field => .ok (d.setDebug mode field)
  | .readDebug text field => .ok (d.readDebug text field)
  | .setTiming on => .ok (d.setTiming on)
  | .setMeshMaps maps => .ok (d.setMeshMaps maps)
  | .setIgnoreWar on => .ok (d.setIgnoreWar on)
  | .setPrefetch distance => d.setPrefetch distance
  | .configure hints => d.configure hints

/-- The settings after a call; a refused call leaves them as they were. -/
def Draft.after (d : Draft) (call : Draft.Call) : Draft := (d.apply call).toOption.getD d

/-- Calls on a session: on either part, or hints for both. -/
inductive Session.Call
  | chain (call : Chain.Call)
  | draft (call : Draft.Call)
  | configure (hints : Hints)

/-- The effect of a call on a session. -/
def Session.apply (s : Session) : Session.Call → Except Error Session
  | .chain call => s.onChain (·.apply call)
  | .draft call => do return { s with draft := ← s.draft.apply call }
  | .configure hints => s.configure hints

/-- The session after a call; a refused call leaves it as it was. -/
def Session.after (s : Session) (call : Session.Call) : Session := (s.apply call).toOption.getD s

end SparseTiling
