import SparseTiling.Proofs.Session.AllOrNothing

/-!
# Sessions along their calls

A host program makes calls on a session in any order and any number. Some are accepted and
some are refused; a refused call leaves the session as it was, and what an accepted one writes
can be said without asking whether it is accepted.

* `Call.write`, `eq_write_of_apply`: what a call writes if it is accepted.
* `Session.afterAll`: the session after all calls.
* `Session.accepted`: the calls among them that were accepted, in their order.
* `accepted_induction`: what accepted calls keep, step by step, holds in the end.
* `exists_of_accepted`: where every call is accepted, each one leads from a session to the next.
-/

namespace SparseTiling

/-! ## What calls write -/

/-- What a call on a chain writes, if it is accepted. -/
def Chain.Call.write : Chain.Call → Chain → Chain
  | .declareSets sets, c =>
    { c with sets := (Nesting.orderSets (sets.map (·.bare))).toOption.getD [] }
  | .declareMaps maps, c => { c with maps := maps.map (·.bare) }
  | .declareLoops loops, c => { c with loops := loops.map (·.bare) }
  | .declarePartitionings ps, c => c.declarePartitionings ps
  | .setTileSize size, c => { c with tileSize := size }
  | .setRank rank, c => { c with rank }
  | .chooseSeed seed, c => { c with chosenSeed := some seed.toNat }

/-- What hints write to settings. -/
def Hints.write (h : Hints) (d : Draft) : Draft where
  settings :=
    { d.settings with
      prefetch := UInt32.ofNat h.prefetch.toInt.toNat
      ignoreWar := h.ignoreWar
      coloring := (h.coloring.map fun text => (Mode.resolve text).1).getD d.settings.coloring
      partitioning :=
        (h.partitioning.map fun text => (Mode.resolve text).1).getD d.settings.partitioning }
  warnings := d.warnings ++
    ((h.coloring.toList.flatMap fun text => (Mode.resolve (α := ColoringMode) text).2) ++
      h.partitioning.toList.flatMap fun text => (Mode.resolve (α := PartitionMode) text).2)

/-- What a call on settings writes, if it is accepted. -/
def Draft.Call.write : Draft.Call → Draft → Draft
  | .setExecution mode, d => d.setExecution mode
  | .readExecution text, d => d.readExecution text
  | .setColoring mode, d => d.setColoring mode
  | .readColoring text, d => d.readColoring text
  | .setPartitioning mode, d => d.setPartitioning mode
  | .readPartitioning text, d => d.readPartitioning text
  | .setDebug mode field, d => d.setDebug mode field
  | .readDebug text field, d => d.readDebug text field
  | .setTiming on, d => d.setTiming on
  | .setMeshMaps maps, d => d.setMeshMaps maps
  | .setIgnoreWar on, d => d.setIgnoreWar on
  | .setPrefetch distance, d =>
    { d with settings := { d.settings with prefetch := UInt32.ofNat distance.toNat } }
  | .configure hints, d => hints.write d

/-- What a call on a session writes, if it is accepted. Whether it is accepted may depend on the
session, what it writes then does not. -/
def Session.Call.write : Session.Call → Session → Session
  | .chain call, s => { s with chain := call.write s.chain }
  | .draft call, s => { s with draft := call.write s.draft }
  | .configure hints, s =>
    { chain := { s.chain with
        chosenSeed := (hints.seedLoop.map fun n => n.toInt.toNat).or s.chain.chosenSeed }
      draft := hints.write s.draft }

theorem prefetchOf_eq {distance : Int} {p : UInt32} (h : prefetchOf distance = .ok p) :
    p = UInt32.ofNat distance.toNat := by
  unfold prefetchOf at h
  split at h
  · exact (Except.ok.inj h).symm
  · cases h

theorem Chain.eq_write_of_apply {c c' : Chain} {call : Chain.Call} (h : c.apply call = .ok c') :
    c' = call.write c := by
  cases call with
  | declareSets sets =>
    obtain ⟨result, -, hresult, rfl⟩ := declareSets_eq_ok h
    rw [Call.write, hresult]
    rfl
  | declareMaps maps => exact (declareMaps_eq_ok h).2
  | declareLoops loops => exact (declareLoops_eq_ok h).2
  | declarePartitionings ps | setTileSize size | setRank rank => exact (Except.ok.inj h).symm
  | chooseSeed seed =>
    obtain ⟨k, hk, h⟩ := bind_eq_ok h
    obtain rfl := Except.ok.inj h
    have hvalue : k = seed.toNat := by
      have := checkSeed_eq_ok hk
      omega
    rw [Call.write, hvalue]

theorem Draft.eq_write_of_configure {d d' : Draft} {hints : Hints}
    (h : d.configure hints = .ok d') : d' = hints.write d := by
  obtain ⟨distance, hdistance, hsettings, hwarnings⟩ := configure_eq_ok h
  rw [prefetchOf_eq hdistance] at hsettings
  rw [List.append_assoc] at hwarnings
  cases d'
  exact congr (congrArg Draft.mk hsettings) hwarnings

theorem Draft.eq_write_of_apply {d d' : Draft} {call : Draft.Call} (h : d.apply call = .ok d') :
    d' = call.write d := by
  cases call with
  | setPrefetch distance =>
    obtain ⟨p, hp, h⟩ := bind_eq_ok h
    obtain rfl := Except.ok.inj h
    rw [Call.write, prefetchOf_eq hp]
  | configure hints => exact eq_write_of_configure h
  | _ => exact (Except.ok.inj h).symm

namespace Session

variable {s t : Session} {call : Call} {calls : List Call}

/-- **An accepted call leads to what it writes.** -/
theorem eq_write_of_apply (h : s.apply call = .ok t) : t = call.write s := by
  cases call with
  | chain call =>
    obtain ⟨c, hc, h⟩ := bind_eq_ok h
    obtain rfl := Except.ok.inj h
    rw [Chain.eq_write_of_apply hc]
    rfl
  | draft call =>
    obtain ⟨d, hd, h⟩ := bind_eq_ok h
    obtain rfl := Except.ok.inj h
    rw [Draft.eq_write_of_apply hd]
    rfl
  | configure hints =>
    obtain ⟨c, hc, h⟩ := bind_eq_ok h
    obtain ⟨d, hd, h⟩ := bind_eq_ok h
    obtain rfl := Except.ok.inj h
    obtain ⟨hsome, hnone⟩ := chooseSeed_eq_ok hc
    rw [Draft.eq_write_of_configure hd]
    cases hseed : hints.seedLoop with
    | none => rw [Call.write, hnone hseed, hseed]; rfl
    | some n =>
      obtain ⟨k, hk, rfl⟩ := hsome n hseed
      have hvalue : k = n.toInt.toNat := by omega
      rw [Call.write, hseed, hvalue]; rfl

/-! ## Sequences of calls -/

/-- The session after a sequence of calls, refused ones among them. -/
def afterAll (s : Session) (calls : List Call) : Session := calls.foldl after s

/-- The calls that are accepted, when all calls are made one after another. -/
def accepted (s : Session) : List Call → List Call
  | [] => []
  | call :: rest =>
    match s.apply call with
    | .ok t => call :: t.accepted rest
    | .error _ => s.accepted rest

theorem after_of_ok (h : s.apply call = .ok t) : s.after call = t := by
  simp [after, h, Except.toOption]

theorem after_of_error {e : Error} (h : s.apply call = .error e) : s.after call = s := by
  simp [after, h, Except.toOption]

theorem accepted_of_ok (h : s.apply call = .ok t) :
    s.accepted (call :: calls) = call :: t.accepted calls := by
  rw [accepted, h]

theorem accepted_of_error {e : Error} (h : s.apply call = .error e) :
    s.accepted (call :: calls) = s.accepted calls := by
  rw [accepted, h]

/-- **Only accepted calls count.** What holds before any call, of no calls, and is kept by each
accepted call holds after all calls, of the accepted ones among them. -/
theorem accepted_induction {P : List Call → Session → Prop}
    (hstep : ∀ made s call t, s.apply call = .ok t → P made s → P (made ++ [call]) t)
    (calls : List Call) {made : List Call} (h : P made s) :
    P (made ++ s.accepted calls) (s.afterAll calls) := by
  induction calls generalizing s made with
  | nil =>
    rw [accepted, List.append_nil]
    exact h
  | cons call rest ih =>
    have hfold : s.afterAll (call :: rest) = (s.after call).afterAll rest := rfl
    rw [hfold]
    cases happly : s.apply call with
    | ok t =>
      have hnext := ih (hstep made s call t happly h)
      rw [List.append_assoc, List.singleton_append] at hnext
      rw [accepted_of_ok happly, after_of_ok happly]
      exact hnext
    | error e =>
      rw [accepted_of_error happly, after_of_error happly]
      exact ih h

theorem accepted_sublist (s : Session) (calls : List Call) : (s.accepted calls).Sublist calls := by
  induction calls generalizing s with
  | nil => exact List.Sublist.slnil
  | cons call rest ih =>
    cases happly : s.apply call with
    | ok t =>
      rw [accepted_of_ok happly]
      exact (ih t).cons_cons call
    | error e =>
      rw [accepted_of_error happly]
      exact (ih s).cons call

/-- Where every call is accepted, so is the first, and then all the others. -/
theorem exists_of_accepted (h : s.accepted (call :: calls) = call :: calls) :
    ∃ t, s.apply call = .ok t ∧ t.accepted calls = calls ∧
      s.afterAll (call :: calls) = t.afterAll calls := by
  cases happly : s.apply call with
  | ok t =>
    rw [accepted_of_ok happly] at h
    refine ⟨t, rfl, (List.cons.inj h).2, ?_⟩
    have hfold : s.afterAll (call :: calls) = (s.after call).afterAll calls := rfl
    rw [hfold, after_of_ok happly]
  | error e =>
    -- a refused call is missing among the accepted ones
    rw [accepted_of_error happly] at h
    have hlength := (accepted_sublist s calls).length_le
    rw [h, List.length_cons] at hlength
    omega

end Session

end SparseTiling
