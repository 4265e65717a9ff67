import SparseTiling.Executor
import SparseTiling.Inspector
import SparseTiling.Proofs.Session.History

/-!
# The order of calls on a session

Each kind of call writes its own part of a session and leaves the others alone; what it writes
there does not depend on the others either, even where its acceptance does. So calls of
different kinds that are all accepted may be made in any order.

* `writeAll`, `afterAll_eq_writeAll`: where every call is accepted, all of them write.
* `Kind`, `Call.kind?`, `Session.content`: the kinds of calls, and the part that each writes.
* `content_write_other`, `content_write_same`: a call leaves the other parts alone, and what it
  makes of its own part depends on that part only.
* `content_writeAll`: so a part is settled by the one call of its kind.
* `warnings_writeAll`: each call adds its own warnings at the end.
* `order_irrelevant`: two orders of the same calls lead to the same chain, settings and code.
-/

namespace SparseTiling

namespace Session

variable {s s' t : Session} {call : Call} {calls calls' : List Call}

/-! ## Writing in a row -/

/-- The session after writes, one after another. -/
def writeAll (s : Session) (calls : List Call) : Session :=
  calls.foldl (fun s call => call.write s) s

theorem writeAll_append (s : Session) (first rest : List Call) :
    s.writeAll (first ++ rest) = (s.writeAll first).writeAll rest := List.foldl_append

/-- Where every call is accepted, all of them write. -/
theorem afterAll_eq_writeAll (h : s.accepted calls = calls) :
    s.afterAll calls = s.writeAll calls := by
  induction calls generalizing s with
  | nil => rfl
  | cons call rest ih =>
    obtain ⟨t, happly, hrest, hafter⟩ := exists_of_accepted h
    rw [hafter, ih hrest, eq_write_of_apply happly]
    rfl

/-! ## Kinds of calls -/

/-- The kinds of calls with which a host program builds a session. -/
inductive Kind
  | sets
  | maps
  | loops
  | partitionings
  | tileSize
  | rank
  | hints
  | debug
  | timing
  | meshMaps
  | execution
  deriving DecidableEq

/-- The kind of a call. Reports are asked for by a level or by its spelling. Calls on the settings
under construction that sessions do not offer themselves have no kind. -/
def Call.kind? : Call → Option Kind
  | .chain (.declareSets _) => some .sets
  | .chain (.declareMaps _) => some .maps
  | .chain (.declareLoops _) => some .loops
  | .chain (.declarePartitionings _) => some .partitionings
  | .chain (.setTileSize _) => some .tileSize
  | .chain (.setRank _) => some .rank
  | .configure _ => some .hints
  | .draft (.setDebug _ _) => some .debug
  | .draft (.readDebug _ _) => some .debug
  | .draft (.setTiming _) => some .timing
  | .draft (.setMeshMaps _) => some .meshMaps
  | .draft (.readExecution _) => some .execution
  | _ => none

/-- What calls of a kind write. -/
def Kind.Content : Kind → Type
  | .sets => List MeshSet
  | .maps => List MeshMap
  | .loops => List Loop
  | .partitionings => List Partitioning
  | .tileSize => UInt32
  | .rank => UInt32
  | .hints => Option Nat × UInt32 × Bool × ColoringMode × PartitionMode
  | .debug => Option DebugMode × Option CoordinateField
  | .timing => Bool
  | .meshMaps => List MeshMap
  | .execution => ExecutionMode

/-- The part of a session that calls of a kind write. -/
def content (s : Session) : (k : Kind) → k.Content
  | .sets => s.chain.sets
  | .maps => s.chain.maps
  | .loops => s.chain.loops
  | .partitionings => s.chain.partitionings
  | .tileSize => s.chain.tileSize
  | .rank => s.chain.rank
  | .hints => (s.chain.chosenSeed, s.settings.prefetch, s.settings.ignoreWar,
      s.settings.coloring, s.settings.partitioning)
  | .debug => (s.settings.debug, s.settings.coordinates)
  | .timing => s.settings.timing
  | .meshMaps => s.settings.meshMaps
  | .execution => s.settings.execution

variable {k j : Kind}

attribute [ext] Chain Settings

theorem content_hints {s s' : Session} (h : s.content .hints = s'.content .hints) :
    s.chain.chosenSeed = s'.chain.chosenSeed ∧ s.settings.prefetch = s'.settings.prefetch ∧
      s.settings.ignoreWar = s'.settings.ignoreWar ∧ s.settings.coloring = s'.settings.coloring ∧
      s.settings.partitioning = s'.settings.partitioning := by
  have hparts : (s.chain.chosenSeed, s.settings.prefetch, s.settings.ignoreWar,
      s.settings.coloring, s.settings.partitioning) = (s'.chain.chosenSeed, s'.settings.prefetch,
      s'.settings.ignoreWar, s'.settings.coloring, s'.settings.partitioning) := h
  simpa only [Prod.mk.injEq] using hparts

/-- The parts make up a session, but for the name of its chain and its warnings. -/
theorem eq_of_content (hname : s.chain.name = s'.chain.name)
    (h : ∀ k, s.content k = s'.content k) : s.chain = s'.chain ∧ s.settings = s'.settings := by
  obtain ⟨hseed, hprefetch, hwar, hcoloring, hpartitioning⟩ := content_hints (h .hints)
  have hlevel : s.settings.debug = s'.settings.debug := congrArg Prod.fst (h .debug)
  have hfield : s.settings.coordinates = s'.settings.coordinates := congrArg Prod.snd (h .debug)
  constructor
  · exact Chain.ext hname (h .sets) (h .maps) (h .loops) (h .partitionings) hseed (h .tileSize)
      (h .rank)
  · exact Settings.ext (h .execution) hcoloring hpartitioning hlevel hfield (h .meshMaps)
      (h .timing) hprefetch hwar

/-! ## One call -/

/-- **A call leaves the parts of other kinds alone.** -/
theorem content_write_other (hkind : call.kind? = some j) (hother : k ≠ j) :
    (call.write s).content k = s.content k := by
  cases call with
  | chain call =>
    cases call <;> cases hkind <;> cases k <;> try contradiction
    all_goals rfl
  | draft call =>
    cases call <;> cases hkind <;> cases k <;> try contradiction
    all_goals rfl
  | configure hints =>
    cases hkind
    cases k <;> try contradiction
    all_goals rfl

/-- **What a call makes of its own part depends on that part only.** -/
theorem content_write_same (hkind : call.kind? = some k) (hsame : s.content k = s'.content k) :
    (call.write s).content k = (call.write s').content k := by
  cases call with
  | chain call => cases call <;> cases hkind <;> rfl
  | draft call =>
    cases call with
    | setDebug mode field | readDebug text field =>
      cases hkind
      -- without a new field the one that is there stays
      have hfield : s.settings.coordinates = s'.settings.coordinates := congrArg Prod.snd hsame
      cases field with
      | none => exact congrArg (Prod.mk _) hfield
      | some f => rfl
    | setTiming | setMeshMaps | readExecution => cases hkind; rfl
    | _ => cases hkind
  | configure hints =>
    cases hkind
    obtain ⟨hseed, -, -, hcoloring, hpartitioning⟩ := content_hints hsame
    simp only [settings] at hcoloring hpartitioning
    simp only [content, Call.write, Hints.write, settings, hseed, hcoloring, hpartitioning]
    rfl

theorem name_write (call : Call) (s : Session) : (call.write s).chain.name = s.chain.name := by
  cases call with
  | chain call => cases call <;> rfl
  | draft call => rfl
  | configure hints => rfl

/-- The warnings that a call leaves: one for each spelling that stands for no mode. -/
def Call.warnings : Call → List Warning
  | .draft (.readExecution text) => (Mode.resolve (α := ExecutionMode) text).2
  | .draft (.readColoring text) => (Mode.resolve (α := ColoringMode) text).2
  | .draft (.readPartitioning text) => (Mode.resolve (α := PartitionMode) text).2
  | .draft (.readDebug text _) => (Mode.resolve (α := DebugMode) text).2
  | .draft (.configure hints) | .configure hints =>
    (hints.coloring.toList.flatMap fun text => (Mode.resolve (α := ColoringMode) text).2) ++
      hints.partitioning.toList.flatMap fun text => (Mode.resolve (α := PartitionMode) text).2
  | _ => []

/-- A call adds its own warnings after those that are there. -/
theorem warnings_write (call : Call) (s : Session) :
    (call.write s).warnings = s.warnings ++ call.warnings := by
  cases call with
  | chain call => exact (List.append_nil _).symm
  | draft call =>
    cases call with
    | readExecution | readColoring | readPartitioning | readDebug | configure => rfl
    | _ => exact (List.append_nil _).symm
  | configure hints => rfl

/-! ## All calls -/

/-- The part of a kind that no call has stays as it is. -/
theorem content_writeAll_other (hkinds : ∀ call ∈ calls, call.kind? ≠ none)
    (hother : some k ∉ calls.map Call.kind?) : (s.writeAll calls).content k = s.content k := by
  induction calls generalizing s with
  | nil => rfl
  | cons call rest ih =>
    rw [List.forall_mem_cons] at hkinds
    rw [List.map_cons, List.mem_cons, not_or] at hother
    obtain ⟨j, hj⟩ := Option.ne_none_iff_exists'.1 hkinds.1
    have hne : k ≠ j := by
      rintro rfl
      exact hother.1 hj.symm
    calc (s.writeAll (call :: rest)).content k
        = ((call.write s).writeAll rest).content k := rfl
      _ = (call.write s).content k := ih hkinds.2 hother.2
      _ = s.content k := content_write_other hj hne

/-- Calls of different kinds: the part of a kind is what its one call makes of it. -/
theorem content_writeAll_mem (hkinds : ∀ call ∈ calls, call.kind? ≠ none)
    (hnodup : (calls.map Call.kind?).Nodup) (hmem : call ∈ calls) (hkind : call.kind? = some k) :
    (s.writeAll calls).content k = (call.write s).content k := by
  obtain ⟨before, after, rfl⟩ := List.append_of_mem hmem
  rw [List.map_append, List.map_cons, hkind, List.nodup_middle, List.nodup_cons, List.mem_append,
    not_or] at hnodup
  rw [List.forall_mem_append, List.forall_mem_cons] at hkinds
  obtain ⟨hbefore, -, hafter⟩ := hkinds
  have hfirst : (s.writeAll before).content k = s.content k :=
    content_writeAll_other hbefore hnodup.1.1
  calc (s.writeAll (before ++ call :: after)).content k
      = ((call.write (s.writeAll before)).writeAll after).content k := by
        rw [writeAll_append]; rfl
    _ = (call.write (s.writeAll before)).content k := content_writeAll_other hafter hnodup.1.2
    _ = (call.write s).content k := content_write_same hkind hfirst

/-- **Each part is the same in every order.** -/
theorem content_writeAll (hperm : calls.Perm calls') (hkinds : ∀ call ∈ calls, call.kind? ≠ none)
    (hnodup : (calls.map Call.kind?).Nodup) (k : Kind) :
    (s.writeAll calls).content k = (s.writeAll calls').content k := by
  have hkinds' : ∀ call ∈ calls', call.kind? ≠ none :=
    fun call hcall => hkinds call (hperm.mem_iff.2 hcall)
  have hmap := hperm.map Call.kind?
  by_cases hk : some k ∈ calls.map Call.kind?
  · obtain ⟨call, hcall, hkind⟩ := List.mem_map.1 hk
    rw [content_writeAll_mem hkinds hnodup hcall hkind,
      content_writeAll_mem hkinds' (hmap.nodup_iff.1 hnodup) (hperm.mem_iff.1 hcall) hkind]
  · rw [content_writeAll_other hkinds hk,
      content_writeAll_other hkinds' fun hk' => hk (hmap.mem_iff.2 hk')]

theorem name_writeAll (s : Session) (calls : List Call) :
    (s.writeAll calls).chain.name = s.chain.name := by
  induction calls generalizing s with
  | nil => rfl
  | cons call rest ih => exact (ih (call.write s)).trans (name_write call s)

theorem warnings_writeAll (s : Session) (calls : List Call) :
    (s.writeAll calls).warnings = s.warnings ++ calls.flatMap Call.warnings := by
  induction calls generalizing s with
  | nil => exact (List.append_nil _).symm
  | cons call rest ih =>
    have hrest := ih (call.write s)
    rw [warnings_write, List.append_assoc] at hrest
    exact hrest

/-- **The order of calls does not matter.** Take calls on a session, at most one of each kind, and
two orders in which all of them are accepted. Both lead to the same chain and settings, so that
the same inspector is generated, or refused for the same reason, and the same executor for all
kernels. The warnings are the same ones, in the order of the calls. -/
theorem order_irrelevant (s : Session) {calls calls' : List Call} (hperm : calls.Perm calls')
    (hkinds : ∀ call ∈ calls, call.kind? ≠ none) (hnodup : (calls.map Call.kind?).Nodup)
    (hall : s.accepted calls = calls) (hall' : s.accepted calls' = calls') :
    let t := s.afterAll calls
    let t' := s.afterAll calls'
    t.chain = t'.chain ∧ t.settings = t'.settings ∧
      Inspector.generate t.chain t.settings = Inspector.generate t'.chain t'.settings ∧
      (∀ kernels, Executor.generate t.chain t.settings kernels =
        Executor.generate t'.chain t'.settings kernels) ∧
      t.warnings.Perm t'.warnings := by
  intro t t'
  have ht : t = s.writeAll calls := afterAll_eq_writeAll hall
  have ht' : t' = s.writeAll calls' := afterAll_eq_writeAll hall'
  have hname : t.chain.name = t'.chain.name := by
    rw [ht, ht', name_writeAll, name_writeAll]
  have hcontent (k : Kind) : t.content k = t'.content k := by
    rw [ht, ht']
    exact content_writeAll hperm hkinds hnodup k
  obtain ⟨hchain, hsettings⟩ := eq_of_content hname hcontent
  refine ⟨hchain, hsettings, by rw [hchain, hsettings], fun kernels => by rw [hchain, hsettings],
    ?_⟩
  rw [ht, ht', warnings_writeAll, warnings_writeAll]
  exact (hperm.flatMap_right Call.warnings).append_left s.warnings

/-- Hints with a seed and a spelling that stands for nothing, another such spelling, and then the
loops and their set. -/
def hintsFirst : List Call :=
  [.configure { seedLoop := some 1, coloring := some "zebra" }, .draft (.readExecution "CUDA"),
    .chain (.declareLoops [⟨"relax", "cells", [.direct .read]⟩,
      ⟨"update", "cells", [.direct .write]⟩]),
    .chain (.declareSets [{ name := "cells", core := 8 }])]

/-- Backwards, the seed is checked against the loops, and the warnings change places. -/
theorem order_irrelevant_hintsFirst :
    let t := (new "jacobi").afterAll hintsFirst
    let t' := (new "jacobi").afterAll hintsFirst.reverse
    t.chain = t'.chain ∧ t.settings = t'.settings ∧
      Inspector.generate t.chain t.settings = Inspector.generate t'.chain t'.settings ∧
      t.warnings.Perm t'.warnings := by
  have hkinds : ∀ call ∈ hintsFirst, call.kind? ≠ none := by
    simp [hintsFirst, Call.kind?]
  have hnodup : (hintsFirst.map Call.kind?).Nodup := by decide
  have hall : (new "jacobi").accepted hintsFirst = hintsFirst := by cbv
  have hall' : (new "jacobi").accepted hintsFirst.reverse = hintsFirst.reverse := by cbv
  obtain ⟨hchain, hsettings, hinspector, -, hwarnings⟩ :=
    order_irrelevant (new "jacobi") hintsFirst.reverse_perm.symm hkinds hnodup hall hall'
  exact ⟨hchain, hsettings, hinspector, hwarnings⟩

end Session

end SparseTiling
