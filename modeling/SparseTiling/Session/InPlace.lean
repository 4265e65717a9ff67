import SparseTiling.Session.Call

/-!
# Sessions held in place

A host program holds one session and changes it by calls. Here every call is a sequence
of checks and writes on the session that is held. A check that fails ends the call with
an error; what the call has written before stays written.

* `Request`: checks and writes on a state.
* `Chain.perform`, `Draft.perform`, `Session.perform`: the calls, step by step.
-/

namespace SparseTiling

/-- Checks and writes on a state that is held in place. -/
abbrev Request (σ : Type) := EStateM Error σ

namespace Request

/-- A check, which writes nothing. -/
def check {σ α : Type} (outcome : Except Error α) : Request σ α := fun s =>
  match outcome with
  | .ok a => .ok a s
  | .error e => .error e s

/-- A request on a part of the state. -/
def focus {σ τ α : Type} (part : τ → σ) (update : τ → σ → τ) (request : Request σ α) :
    Request τ α := fun t =>
  match request (part t) with
  | .ok a s => .ok a (update t s)
  | .error e s => .error e (update t s)

end Request

open Request

namespace Chain

/-- Write the seed loop. -/
def pinSeed (seed : Nat) : Request Chain Unit := modify ({ · with chosenSeed := some seed })

/-- A call on a chain that is held in place. -/
def perform : Call → Request Chain Unit
  | .declareSets sets => do
    let sets := sets.map (·.bare)
    check (checkNames .set (fun name => some (.duplicateSet name)) 0 [] (sets.map (·.name)))
    let ordered ← check (Nesting.orderSets sets)
    modify ({ · with sets := ordered })
  | .declareMaps maps => do
    let maps := maps.map (·.bare)
    check (checkNames .map (fun name => some (.duplicateMap name)) 0 [] (maps.map (·.name)))
    modify ({ · with maps })
  | .declareLoops loops => do
    let loops := loops.map (·.bare)
    check (checkNames .loop (fun _ => none) 0 [] (loops.map (·.name)))
    modify ({ · with loops })
  | .declarePartitionings partitionings => modify (·.declarePartitionings partitionings)
  | .setTileSize size => modify ({ · with tileSize := size })
  | .setRank rank => modify ({ · with rank })
  | .chooseSeed seed => do
    let c ← get
    let chosen ← check (c.checkSeed seed)
    pinSeed chosen

end Chain

namespace Draft

/-- Read a mode leniently. Its warnings are written before the mode is used. -/
def lenient {α : Type} [Mode α] (text : String) : Request Draft α := do
  let read := Mode.resolve (α := α) text
  modify (·.warn read.2)
  return read.1

/-- Write the prefetch distance. -/
def writePrefetch (distance : UInt32) : Request Draft Unit :=
  modify fun d => { d with settings := { d.settings with prefetch := distance } }

/-- Read the coloring from its spelling, if there is one. -/
def performColoring : Option String → Request Draft Unit
  | none => pure ()
  | some text => do
    let mode ← lenient text
    modify (·.setColoring mode)

/-- Read the partitioning from its spelling, if there is one. -/
def performPartitioning : Option String → Request Draft Unit
  | none => pure ()
  | some text => do
    let mode ← lenient text
    modify (·.setPartitioning mode)

/-- A call on settings that are held in place. -/
def perform : Call → Request Draft Unit
  | .setExecution mode => modify (·.setExecution mode)
  | .readExecution text => do
    let mode ← lenient text
    modify (·.setExecution mode)
  | .setColoring mode => modify (·.setColoring mode)
  | .readColoring text => performColoring (some text)
  | .setPartitioning mode => modify (·.setPartitioning mode)
  | .readPartitioning text => performPartitioning (some text)
  | .setDebug mode field => modify (·.setDebug mode field)
  | .readDebug text field => do
    let mode ← lenient text
    modify (·.setDebug mode field)
  | .setTiming on => modify (·.setTiming on)
  | .setMeshMaps maps => modify (·.setMeshMaps maps)
  | .setIgnoreWar on => modify (·.setIgnoreWar on)
  | .setPrefetch distance => do
    let prefetch ← check (prefetchOf distance)
    writePrefetch prefetch
  | .configure hints => do
    let prefetch ← check (prefetchOf hints.prefetch.toInt)
    writePrefetch prefetch
    modify (·.setIgnoreWar hints.ignoreWar)
    performColoring hints.coloring
    performPartitioning hints.partitioning

end Draft

namespace Session

/-- A request on the chain of a session. -/
def onHeldChain {α : Type} : Request Chain α → Request Session α :=
  focus (·.chain) fun s chain => { s with chain }

/-- A request on the settings of a session. -/
def onHeldDraft {α : Type} : Request Draft α → Request Session α :=
  focus (·.draft) fun s draft => { s with draft }

/-- Check a seed loop against the chain of a session, if there is one. -/
def checkHeldSeed : Option Int64 → Request Session (Option Nat)
  | none => pure none
  | some seed => do
    let s ← get
    let chosen ← check (s.chain.checkSeed seed.toInt)
    return some chosen

/-- Write a seed loop to the chain of a session, if there is one. -/
def pinHeldSeed : Option Nat → Request Session Unit
  | none => pure ()
  | some seed => onHeldChain (Chain.pinSeed seed)

/-- **A call on a session that is held in place.** Hints reach both of its parts: the seed is
checked first and written last. -/
def perform : Call → Request Session Unit
  | .chain call => onHeldChain (Chain.perform call)
  | .draft call => onHeldDraft (Draft.perform call)
  | .configure hints => do
    let seed ← checkHeldSeed hints.seedLoop
    onHeldDraft (Draft.perform (.configure hints))
    pinHeldSeed seed

end Session

end SparseTiling
