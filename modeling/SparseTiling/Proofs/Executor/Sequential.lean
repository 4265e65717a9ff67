import Mathlib.Tactic
import SparseTiling.Proofs.Executor.Report

/-!
# Executors without threads

Without threads an executor runs exactly the tiled schedule: colors in increasing order,
the tiles of a color in increasing order, missing tiles passed over, and on each tile the
kernels in the order of the chain. With timing, its sums are those of the schedule, and
they are what it reports.

* `iteration_color`, `exec_colorLoop`: a color, and all of them.
* `does_program`: the whole executor.
* `runs_tiled_schedule`: a generated executor.
-/

namespace SparseTiling.Executor

open Code

variable {Obj : Type}

section Sequential

variable {p : Platform Obj} {s : Settings} {bs : List Binding} {x : Obj} {region : Int}
  {l : Ledger} {fs : Frames Obj}

theorem objects_colorFrame (color : Nat) :
    Frames.objects (colorFrame p x color :: fs) = fs.objects := rfl

/-- A color without threads. -/
theorem iteration_color (hseq : s.execution.isShared = false) (kernel : Binding → String)
    (color : Nat) (now : Int) (trace : List (Event Obj)) (hbs : Numbered bs)
    (hb : Base s bs.length x region l fs) :
    let time := lap p kernel bs fs.objects
    let vs := tilesAt p x region color (List.range (tilesOf p x color))
    ∃ now' events, iteration "i" (execAll p (colorStmts s bs kernel)) color ⟨fs, now, trace⟩
        = some (.next, ⟨settle s bs.length (tally p time vs l) fs, now', trace ++ events⟩) ∧
      RanAll p kernel time bs vs events := by
  intro time vs
  obtain ⟨now', events, hloop, hran⟩ := forEach_tiles (p := p) kernel
    (List.range (tilesOf p x color)) now trace hbs (hb.ready p color)
  rw [objects_colorFrame] at hran hloop
  -- the variables of the color hide none of the sums
  rw [settle_cons (lookup_colorFrame_outer p x color)] at hloop
  have hbound : eval p ⟨colorFrame p x color :: fs, now, trace⟩ (.ident tileCount)
      = some (.int (p.tilesPerColor x color)) := Frames.value?_cons_of_some rfl
  refine ⟨now', events, block_eq_some (g := colorFrame p x color) ?_, hran⟩
  have hbody : colorBody s bs.length (.forRange "j" (.ident tileCount) (tileBody s bs kernel))
      = [.forRange "j" (.ident tileCount) (tileBody s bs kernel)] := by
    rw [colorBody, hseq]
    rfl
  rw [colorStmts, hbody]
  exact Does.cons (exec_tileCount hb.exec) (.single ((exec_forRange hbound).trans hloop))

/-- **The loop over the colors, without threads.** -/
theorem exec_colorLoop (hseq : s.execution.isShared = false) (kernel : Binding → String)
    (now : Int) (trace : List (Event Obj)) (hbs : Numbered bs)
    (hb : Base s bs.length x region l fs)
    (hcolors : fs.value? colorCount = some (.int (p.numColors x))) :
    let time := lap p kernel bs fs.objects
    let vs := visits p x region
    ∃ now' events, exec p (colorLoop s bs kernel) ⟨fs, now, trace⟩
        = some (.next, ⟨settle s bs.length (tally p time vs l) fs, now', trace ++ events⟩) ∧
      RanAll p kernel time bs vs events := by
  intro time vs
  -- the invariant of the inner loop, one level up: over the colors so far
  let Inv (before : List Nat) (τ : State Obj) : Prop := ∃ now' events,
    τ = ⟨settle s bs.length (tally p time (tilesIn p x region before) l) fs, now',
      trace ++ events⟩ ∧ RanAll p kernel time bs (tilesIn p x region before) events
  have h₀ : Inv [] ⟨fs, now, trace⟩ :=
    ⟨now, [], by simp [tilesIn, tally_nil, settle_eq hb.kept], .nil⟩
  obtain ⟨σ', hrun, now', events, rfl, hran⟩ := forEach_spec
    (iteration "i" (execAll p (colorStmts s bs kernel))) (List.range (colorsOf p x)) Inv h₀ (by
    rintro before color after τ - ⟨now₁, events₁, rfl, hran₁⟩
    obtain ⟨now₂, events₂, hrun, hran₂⟩ := iteration_color (p := p) hseq kernel color now₁
      (trace ++ events₁) hbs hb.settled
    rw [objects_settle hb.kept] at hrun hran₂
    have hnext : tilesIn p x region (before ++ [color])
        = tilesIn p x region before
          ++ tilesAt p x region color (List.range (tilesOf p x color)) := by
      simp [tilesIn]
    refine ⟨.next, _, hrun, by decide, now₂, events₁ ++ events₂, ?_, ?_⟩
    · rw [settle_settle, hnext, tally_append, List.append_assoc]
    · rw [hnext]
      exact hran₁.append hran₂)
  have hbound : eval p ⟨fs, now, trace⟩ (.ident colorCount) = some (.int (p.numColors x)) := hcolors
  exact ⟨now', events, (exec_forRange hbound).trans hrun, hran⟩

theorem accumulators_sequential (hseq : s.execution.isShared = false) :
    accumulators s = mainBooks := by
  rw [accumulators, hseq]
  rfl

theorem base_walk {n : Nat} {rank : Int} (hseq : s.execution.isShared = false) :
    Base s n x region l [walkFrame p s n x region rank l, globals] where
  exec := by
    rw [walkFrame]
    rfl
  region := by
    unfold walkFrame statistics
    split <;> rfl
  kept ht := by
    rw [accumulators_sequential hseq]
    exact kept_walk ht

theorem settle_walk {n : Nat} {rank : Int} {l' : Ledger} (hseq : s.execution.isShared = false) :
    settle s n l' [walkFrame p s n x region rank l, globals]
      = [walkFrame p s n x region rank l', globals] := by
  unfold settle walkFrame statistics
  rw [accumulators_sequential hseq]
  by_cases ht : s.timing
  · rw [if_pos ht, if_pos ht, if_pos ht]
    rfl
  · rw [if_neg ht, if_neg ht, if_neg ht]

/-- **The whole executor, without threads.** -/
theorem does_program (hseq : s.execution.isShared = false) (chain : String)
    (kernel : Binding → String) (x : Obj) (region rank now : Int) (hbs : Numbered bs) :
    let time := lap p kernel bs [x, x]
    let l := tally p time (visits p x region) .blank
    ∃ fs now' events, Does p (program chain s bs kernel) (entry x region rank now)
        ⟨fs, now', events⟩ ∧
      RanAll p kernel time bs (visits p x region) events ∧
      (s.timing → Reported chain bs.length region rank l fs) := by
  intro time l
  have hbase : Base s bs.length x region .blank
      [walkFrame p s bs.length x region rank .blank, globals] := base_walk hseq
  obtain ⟨now', events, hloop, hran⟩ := exec_colorLoop (p := p) hseq kernel now [] hbs hbase rfl
  rw [objects_walk] at hloop hran
  rw [settle_walk hseq, List.nil_append] at hloop
  obtain ⟨fs, hclose, hreport⟩ :=
    does_closing (p := p) (s := s) x region rank chain bs.length l now' events
  refine ⟨fs, now', events, ?_, hran, hreport⟩
  rw [program_eq]
  exact does_opening.append (.cons hloop hclose)

end Sequential

/-- **Without threads, a generated executor runs exactly the tiled schedule.** With
timing, its sums are those of the schedule, and its report has them. -/
theorem runs_tiled_schedule {c : Chain} {s : Settings} {kernels : List String} {e : Emission}
    (hgen : generate c s kernels = .ok e)
    (hmode : s.execution = .sequential ∨ s.execution = .processes)
    (p : Platform Obj) (x : Obj) (region rank now : Int) :
    e.source = Code.render (programOf c s kernels) ∧
    ∃ (σ : State Obj) (time : Obj → Nat → Int),
      execAll p (programOf c s kernels) (entry x region rank now) = some (.next, σ) ∧
      List.Forall₂
        (fun r e => KernelRun p kernels r.1 r.2.1 r.2.2 e ∧ p.time e = time r.1.tile r.2.2)
        (schedule c (visits p x region)) σ.trace ∧
      (s.timing →
        let iters l := ((visits p x region).map fun v => p.loopSize v.tile (l : Nat)).sum
        let times l := (visits p x region).map fun v => time v.tile (l : Nat)
        let loops := List.range c.loops.length
        σ.frames.value? "nIters" = some (.array (loops.map fun l => .int (iters l))) ∧
        σ.frames.value? "times" = some (.array (loops.map fun l => .array ((times l).map .int))) ∧
        σ.frames.value? "outfile" = some (.array (loops.flatMap fun (l : Nat) =>
          [.str "Loop ", .int l, .str ": totIters=", .int (iters l), .str ", time=",
            .int (times l).sum, .str "\n"]))) := by
  obtain ⟨hsource, hlen⟩ := generate_eq_ok hgen
  have hseq : s.execution.isShared = false := by
    rcases hmode with h | h <;> rw [h] <;> rfl
  obtain ⟨fs, now', events, hdoes, hran, hreport⟩ := does_program (p := p) hseq c.name
    (kernelAt kernels) x region rank now (numbered_bindings c)
  refine ⟨hsource, ⟨fs, now', events⟩, _, hdoes, hran.kernelRuns hlen, fun ht => ?_⟩
  have hreported := hreport ht
  rw [length_bindings] at hreported
  refine ⟨?_, ?_, ?_⟩
  · refine hreported.kept.iters.trans ?_
    simp only [Ledger.itersValue, tally_blank]
  · refine hreported.kept.times.trans ?_
    simp only [Ledger.timesValue, tally_blank]
  · rw [hreported.lines]
    refine congrArg (fun items => some (Value.array items)) (List.flatMap_congr fun l _ => ?_)
    simp only [lineOf, tally_blank]

/-- A chain over edges and cells: its second loop goes through two maps. -/
def sweepCalls : List Chain.Call :=
  [.declareSets [{ name := "edges", core := 4 }, { name := "cells", core := 3 }],
    .declareMaps
      [{ name := "e2c", source := "edges", target := "cells", values := [0, 1, 2, 0] },
        { name := "c2e", source := "cells", target := "edges", values := [0, 1, 2] }],
    .declareLoops
      [{ name := "flux", set := "edges", descriptors := [.through "e2c" .increment] },
        { name := "update", set := "cells",
          descriptors := [.direct .write, .through "c2e" .read, .through "e2c" .read] }],
    .setTileSize 2]

/-- Two colors with two tiles each, of which the second of the first color is missing. -/
def sweepPlatform : Platform Nat where
  numColors _ := 2
  tilesPerColor _ _ := 2
  tileAt _ c t _ := if c = 0 ∧ t = 1 then none else some (10 * c + t + 1).toNat
  loopSize tile l := 100 * tile + l
  localMap tile l m := 1000 * tile + 10 * l.toNat + m.length
  iterations tile l := 2000 * tile + l.toNat
  duration text objects := text.length + objects.length
  status _ := -1

/-- The chain of `sweepCalls`. -/
def sweep : Chain := (Chain.new "sweep").afterAll sweepCalls

theorem check_sweep : ∃ bs, check sweep = .ok bs ∧ bs.length = 2 := ⟨_, by cbv, rfl⟩

theorem generate_sweep (s : Settings) : ∃ e, generate sweep s ["f();", "u();"] = .ok e := by
  obtain ⟨bs, hcheck, hlen⟩ := check_sweep
  exact generate_of_check hcheck s hlen.symm

theorem length_loops_sweep : sweep.loops.length = 2 := by
  obtain ⟨e, he⟩ := generate_sweep {}
  exact (generate_eq_ok he).2.symm

theorem runs_tiled_schedule_sweep :
    ∃ e, generate sweep { timing := true } ["f();", "u();"] = .ok e ∧
      ∃ (σ : State Nat) (time : Nat → Nat → Int),
        execAll sweepPlatform (programOf sweep { timing := true } ["f();", "u();"]) (entry 7 1 0 0)
          = some (.next, σ) ∧
        List.Forall₂
          (fun r e => KernelRun sweepPlatform ["f();", "u();"] r.1 r.2.1 r.2.2 e ∧
            sweepPlatform.time e = time r.1.tile r.2.2)
          (schedule sweep [⟨0, 0, 1⟩, ⟨1, 0, 11⟩, ⟨1, 1, 12⟩]) σ.trace ∧
        σ.frames.value? "nIters" = some (.array [.int 2400, .int 2403]) := by
  obtain ⟨e, he⟩ := generate_sweep { timing := true }
  obtain ⟨-, σ, time, hrun, htrace, hsums⟩ :=
    runs_tiled_schedule he (.inl rfl) sweepPlatform 7 1 0 0
  refine ⟨e, he, σ, time, hrun, htrace, ?_⟩
  obtain ⟨hiters, -, -⟩ := hsums rfl
  rw [hiters, length_loops_sweep]
  rfl

end SparseTiling.Executor
