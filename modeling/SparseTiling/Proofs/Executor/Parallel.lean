import Mathlib.Tactic
import SparseTiling.Proofs.Executor.Region
import SparseTiling.Proofs.Executor.Sequential

/-!
# Executors with threads

With threads, the tiles of one color run in any order, on any number of workers. Still
every kernel runs once on every tile, in the order of the chain on each tile, and no tile
runs before one of a smaller color. With timing, the sums do not depend on the order, and
the iterations are those of an executor without threads.

* `ColorJob.runs_color`, `ColorJob.rounds_colors`: a color, and several.
* `ColorJob.runs_program`: the whole executor.
* `color_safe_on_every_schedule`: a generated executor.
-/

namespace SparseTiling.Executor

open Code

variable {Obj : Type}

namespace ColorJob

variable (J : ColorJob Obj) {l : Ledger} {now : Int} {past : List (Event Obj)} {σ : State Obj}

/-- Another color of the same executor. -/
def recolored (color : Nat) : ColorJob Obj := { J with color }

/-- The variables during the loop over the colors. -/
def outerFrames (l : Ledger) : Frames Obj :=
  [walkFrame J.p J.s J.loops J.x J.region J.rank l, globals]

/-- The state in which a color starts. -/
def colorStart (l : Ledger) (now : Int) (past : List (Event Obj)) : State Obj :=
  ⟨[("i", .int J.color)] :: J.outerFrames l, now, past⟩

theorem exec_start : exec J.p
    (.declare "const int" tileCount (Library.execTilesPerColor execVar "i"))
    (J.colorStart l now past) = some (.next, ⟨J.frames l, now, past⟩) :=
  exec_tileCount rfl

theorem colorBody_timed (ht : J.s.timing) : colorBody J.s J.bs.length
    (.forRange "j" (.ident tileCount) (tileBody J.s J.bs J.kernel))
      = [.pragma "omp parallel", .scope J.stmts] := by
  rw [colorBody, if_pos J.shared, if_pos ht, stmts, if_pos ht, shareLoop, mergeBlock, if_pos ht]
  rfl

theorem colorBody_untimed (ht : ¬ J.s.timing) : colorBody J.s J.bs.length
    (.forRange "j" (.ident tileCount) (tileBody J.s J.bs J.kernel))
      = [.pragma "omp parallel for schedule(dynamic)",
        .forRange "j" (.ident tileCount) (tileBody J.s J.bs J.kernel)] := by
  rw [colorBody, if_pos J.shared, if_neg ht]

theorem stmts_untimed (ht : ¬ J.s.timing) : J.stmts = [.pragma "omp for schedule(dynamic)",
    .forRange "j" (.ident tileCount) (tileBody J.s J.bs J.kernel)] := by
  rw [stmts, if_neg ht, shareLoop, mergeBlock, if_neg ht]

theorem not_plain_colorStmts : ¬ plain (colorStmts J.s J.bs J.kernel) := by
  intro h
  have hbody := (plain_cons.1 h).2
  by_cases ht : J.s.timing
  · rw [J.colorBody_timed ht] at hbody
    exact not_plain_pragma (plain_cons.1 hbody).1
  · rw [J.colorBody_untimed ht] at hbody
    exact not_plain_pragma (plain_cons.1 hbody).1

end ColorJob

theorem eq_of_share {text : String} (h : Directive.ofPragma? text = some .share) :
    text = "omp for schedule(dynamic)" := by
  unfold Directive.ofPragma? at h
  split at h <;> simp_all

namespace ColorJob

variable (J : ColorJob Obj) {l : Ledger} {now : Int} {past : List (Event Obj)} {σ : State Obj}

/-- A color is a team that runs the statements of its workers. -/
theorem team_of_runs (h : Runs J.p (colorStmts J.s J.bs J.kernel) (J.colorStart l now past) σ) :
    ∃ count t, 0 < count ∧ Steps J.p (Team.fork count J.stmts ⟨J.frames l, now, past⟩) t ∧
      t.Joined ∧ σ = t.state := by
  obtain ⟨σ₁, hexec, hrest⟩ := h.plain_inv rfl
  obtain rfl : _ = σ₁ := by simpa using J.exec_start.symm.trans hexec
  -- with timing the team runs a block, else it shares the loop at once
  by_cases ht : J.s.timing
  · rw [J.colorBody_timed ht] at hrest
    cases hrest with
    | plain hp => exact absurd hp not_plain_pragma
    | team _ hcount hsteps hj hnil => exact ⟨_, _, hcount, hsteps, hj, hnil.nil_inv⟩
  · rw [J.colorBody_untimed ht] at hrest
    cases hrest with
    | plain hp => exact absurd hp not_plain_pragma
    | teamLoop _ hshare hcount hsteps hj hnil =>
      rw [eq_of_share hshare, ← J.stmts_untimed ht] at hsteps
      exact ⟨_, _, hcount, hsteps, hj, hnil.nil_inv⟩

theorem runs_of_team {t : Team Obj}
    (h : Steps J.p (Team.fork 1 J.stmts ⟨J.frames l, now, past⟩) t) (hj : t.Joined) :
    Runs J.p (colorStmts J.s J.bs J.kernel) (J.colorStart l now past) t.state := by
  refine .plain rfl J.exec_start ?_
  by_cases ht : J.s.timing
  · rw [J.colorBody_timed ht]
    exact .team rfl Nat.one_pos h hj .nil
  · rw [J.colorBody_untimed ht]
    rw [J.stmts_untimed ht] at h
    exact .teamLoop rfl rfl Nat.one_pos h hj .nil

/-- **A color with threads:** its tiles in some order. -/
theorem runs_color (h : Runs J.p (colorStmts J.s J.bs J.kernel) (J.colorStart l now past) σ) :
    ∃ l' order now' events, σ = ⟨J.frames l', now', past ++ events⟩ ∧
      order.Perm (List.range J.size) ∧
      RanAll J.p J.kernel J.time J.bs (J.tiles order) events ∧
      (J.s.timing → ∀ k, l'.count k = l.count k + gain J.p J.time (J.tiles order) k) := by
  obtain ⟨count, t, hcount, hsteps, hj, rfl⟩ := J.team_of_runs h
  exact steps_joined hcount hsteps hj

/-- A color can always be run. -/
theorem exists_runs_color (l : Ledger) (now : Int) (past : List (Event Obj)) :
    ∃ l' now' past', Runs J.p (colorStmts J.s J.bs J.kernel) (J.colorStart l now past)
      ⟨J.frames l', now', past'⟩ := by
  obtain ⟨t, hsteps, hj⟩ := (reached_fork J l now past Nat.one_pos).completes
  have hruns := J.runs_of_team hsteps hj
  obtain ⟨l', order, now', events, hstate, -⟩ := J.runs_color hruns
  exact ⟨l', now', past ++ events, hstate ▸ hruns⟩

/-- **The loop over colors, with threads:** the tiles of each color in some order, and
colors one after another. -/
theorem rounds_colors {colors : List Nat} (hcolors : colors.Pairwise (· < ·))
    (h : Rounds J.p "i" (colorStmts J.s J.bs J.kernel) colors ⟨J.outerFrames l, now, past⟩ σ) :
    ∃ l' vs now' events, σ = ⟨J.outerFrames l', now', past ++ events⟩ ∧
      vs.Perm (tilesIn J.p J.x J.region colors) ∧ vs.Pairwise (fun v w => v.color ≤ w.color) ∧
      RanAll J.p J.kernel J.time J.bs vs events ∧
      (J.s.timing → ∀ k, l'.count k = l.count k + gain J.p J.time vs k) := by
  induction colors generalizing l now past with
  | nil =>
    cases h
    exact ⟨l, [], now, [], by simp, .refl _, .nil, .nil, fun _ k => by simp [gain]⟩
  | cons color colors ih =>
    obtain ⟨hfirst, hrest⟩ := List.pairwise_cons.1 hcolors
    cases h with
    | cons hbody hrounds =>
      obtain ⟨l₁, order, now₁, events₁, rfl, horder, hran₁, hsums₁⟩ :=
        (J.recolored color).runs_color hbody
      obtain ⟨l₂, vs, now₂, events₂, rfl, hperm, hpair, hran₂, hsums₂⟩ := ih hrest hrounds
      have hmem : ∀ v ∈ vs, v.color ∈ colors := by
        intro v hv
        obtain ⟨c, hc, hvc⟩ := List.mem_flatMap.1 (hperm.mem_iff.1 hv)
        rwa [color_of_mem_tilesAt hvc]
      refine ⟨l₂, tilesAt J.p J.x J.region color order ++ vs, now₂, events₁ ++ events₂, ?_, ?_, ?_,
        hran₁.append hran₂, ?_⟩
      · rw [List.append_assoc]
      · exact (horder.filterMap _).append hperm
      · refine List.pairwise_append.2 ⟨?_, hpair, ?_⟩
        · refine List.pairwise_of_forall_mem_list fun v hv w hw => ?_
          rw [color_of_mem_tilesAt hv, color_of_mem_tilesAt hw]
        · -- later colors are larger
          intro v hv w hw
          rw [color_of_mem_tilesAt hv]
          exact (hfirst _ (hmem w hw)).le
      · intro ht k
        rw [hsums₂ ht k, hsums₁ ht k, gain_append, add_assoc]
        rfl

theorem exists_rounds_colors (colors : List Nat) (l : Ledger) (now : Int)
    (past : List (Event Obj)) :
    ∃ σ, Rounds J.p "i" (colorStmts J.s J.bs J.kernel) colors ⟨J.outerFrames l, now, past⟩ σ := by
  induction colors generalizing l now past with
  | nil => exact ⟨_, .nil⟩
  | cons color colors ih =>
    obtain ⟨l', now', past', hruns⟩ := (J.recolored color).exists_runs_color l now past
    obtain ⟨σ, hrounds⟩ := ih l' now' past'
    exact ⟨σ, .cons hruns hrounds⟩

/-! ## The whole -/

theorem plain_opening (s : Settings) (n : Nat) : plain (opening s n) := by
  unfold opening
  split <;> rfl

theorem plain_closing (chain : String) (s : Settings) (n : Nat) : plain (closing chain s n) := by
  unfold closing
  split <;> rfl

theorem eval_colors : eval J.p ⟨J.outerFrames l, now, past⟩ (.ident colorCount)
    = some (.int (J.p.numColors J.x)) := rfl

/-- **The whole executor, with threads.** -/
theorem runs_program {chain : String}
    (h : Runs J.p (program chain J.s J.bs J.kernel) (entry J.x J.region J.rank now) σ) :
    ∃ l vs, vs.Perm (visits J.p J.x J.region) ∧ vs.Pairwise (fun v w => v.color ≤ w.color) ∧
      RanAll J.p J.kernel J.time J.bs vs σ.trace ∧
      (J.s.timing → Reported chain J.loops J.region J.rank l σ.frames ∧
        ∀ k, l.count k = gain J.p J.time vs k) := by
  rw [program_eq] at h
  have hloop : Runs J.p (colorLoop J.s J.bs J.kernel :: closing chain J.s J.loops)
      ⟨J.outerFrames .blank, now, []⟩ σ := h.does_inv (plain_opening _ _) does_opening
  cases hloop with
  | plain hp => exact absurd (plain_forRange.1 hp) J.not_plain_colorStmts
  | loop _ hbound hrounds hclosing =>
    obtain rfl := Value.int.inj (Option.some.inj (hbound.symm.trans J.eval_colors))
    obtain ⟨l, vs, now', events, rfl, hperm, hpair, hran, hsums⟩ :=
      J.rounds_colors List.pairwise_lt_range hrounds
    obtain ⟨fs, hdoes, hreport⟩ := does_closing (p := J.p) (s := J.s) J.x J.region J.rank chain
      J.loops l now' ([] ++ events)
    rw [← List.append_nil (closing chain J.s J.loops)] at hclosing
    obtain rfl := (hclosing.does_inv (plain_closing _ _ _) hdoes).nil_inv
    refine ⟨l, vs, hperm, hpair, hran, fun ht => ⟨hreport ht, fun k => ?_⟩⟩
    rw [hsums ht k, count_blank, zero_add]

theorem exists_runs_program (chain : String) (now : Int) :
    ∃ σ, Runs J.p (program chain J.s J.bs J.kernel) (entry J.x J.region J.rank now) σ := by
  obtain ⟨σ, hrounds⟩ := J.exists_rounds_colors (List.range (colorsOf J.p J.x)) .blank now []
  obtain ⟨l, -, now', events, rfl, -⟩ := J.rounds_colors List.pairwise_lt_range hrounds
  obtain ⟨fs, hdoes, -⟩ := does_closing (p := J.p) (s := J.s) J.x J.region J.rank chain J.loops l
    now' ([] ++ events)
  have hclosing := Runs.of_does (plain_closing chain J.s J.loops) hdoes .nil
  rw [List.append_nil] at hclosing
  refine ⟨⟨fs, now', [] ++ events⟩, ?_⟩
  rw [program_eq]
  exact Runs.of_does (plain_opening _ _) does_opening
    (.loop J.not_plain_colorStmts J.eval_colors hrounds hclosing)

end ColorJob

section Totals

variable {l l₀ : Ledger} {n : Nat}

theorem fst_eq_of_count (h : ∀ k, l.count k = l₀.count k) (k : Nat) : (l k).1 = (l₀ k).1 :=
  (Prod.ext_iff.1 (h k)).1

theorem perm_of_count (h : ∀ k, l.count k = l₀.count k) (k : Nat) : (l k).2.Perm (l₀ k).2 :=
  Multiset.coe_eq_coe.1 (Prod.ext_iff.1 (h k)).2

theorem itersValue_of_count (h : ∀ k, l.count k = l₀.count k) :
    (l.itersValue n : Value Obj) = l₀.itersValue n := by
  simp only [Ledger.itersValue, fst_eq_of_count h]

/-- A line of the report does not depend on the order of the times. -/
theorem lineOf_of_count (h : ∀ k, l.count k = l₀.count k) (k : Nat) :
    (lineOf l k : List (Value Obj)) = lineOf l₀ k := by
  unfold lineOf
  rw [fst_eq_of_count h, (perm_of_count h k).sum_eq]

end Totals

/-- **With threads, a generated executor is safe on every schedule.** It can run to its
end. Whatever the number of workers and their steps, every kernel runs once on every
tile, the kernels of a tile run in the order of the chain, and no tile runs before one of a
smaller color. With timing, neither the iterations, nor the times as a multiset, nor the report
depend on the schedule; the iterations and the report are those without threads. Times are whole
numbers here, and so are their sums: that the reports agree rests on it, and nothing is said of the
rounding of sums, which does depend on the order. -/
theorem color_safe_on_every_schedule {c : Chain} {s : Settings} {kernels : List String}
    {e : Emission} (hgen : generate c s kernels = .ok e)
    (hmode : s.execution = .threads ∨ s.execution = .threadsAndProcesses)
    (p : Platform Obj) (x : Obj) (region rank now : Int) :
    e.source = Code.render (programOf c s kernels) ∧
    (∃ σ, Runs p (programOf c s kernels) (entry x region rank now) σ) ∧
    ∃ (time : Obj → Nat → Int) (σ₀ : State Obj),
      execAll p (programOf c { s with execution := .sequential } kernels)
        (entry x region rank now) = some (.next, σ₀) ∧
      ∀ σ, Runs p (programOf c s kernels) (entry x region rank now) σ →
        (∃ vs, vs.Perm (visits p x region) ∧ vs.Pairwise (fun v w => v.color ≤ w.color) ∧
          List.Forall₂
            (fun r e => KernelRun p kernels r.1 r.2.1 r.2.2 e ∧ p.time e = time r.1.tile r.2.2)
            (schedule c vs) σ.trace) ∧
        (s.timing →
          let iters l := ((visits p x region).map fun v => p.loopSize v.tile (l : Nat)).sum
          let loops := List.range c.loops.length
          σ.frames.value? "nIters" = some (.array (loops.map fun l => .int (iters l))) ∧
          σ.frames.value? "nIters" = σ₀.frames.value? "nIters" ∧
          σ.frames.value? "outfile" = σ₀.frames.value? "outfile" ∧
          ∃ times : Nat → List Int,
            σ.frames.value? "times"
              = some (.array (loops.map fun l => .array ((times l).map .int))) ∧
            ∀ l, (times l).Perm ((visits p x region).map fun v => time v.tile l)) := by
  obtain ⟨hsource, hlen⟩ := generate_eq_ok hgen
  have hshared : s.execution.isShared := by
    rcases hmode with h | h <;> rw [h] <;> rfl
  -- the color plays no part in what is said of the whole
  let J : ColorJob Obj := ⟨p, s, bindings c, kernelAt kernels, x, region, rank, 0, hshared,
    numbered_bindings c⟩
  obtain ⟨fs₀, now₀, events₀, hdoes, -, hreport₀⟩ := does_program (p := p)
    (s := { s with execution := .sequential }) rfl c.name (kernelAt kernels) x region rank now
    (numbered_bindings c)
  refine ⟨hsource, J.exists_runs_program c.name now, J.time, ⟨fs₀, now₀, events₀⟩, hdoes, ?_⟩
  intro σ hσ
  obtain ⟨l, vs, hperm, hpair, hran, hsums⟩ := J.runs_program hσ
  refine ⟨⟨vs, hperm, hpair, hran.kernelRuns hlen⟩, fun ht => ?_⟩
  obtain ⟨hreport, hgain⟩ := hsums ht
  have hreport₀ := hreport₀ ht
  set l₀ := tally p J.time (visits p x region) .blank with hl₀
  have hcount : ∀ k, l.count k = l₀.count k := by
    intro k
    rw [hgain k, gain_perm hperm, hl₀, count_tally, count_blank, zero_add]
  have hnIters : σ.frames.value? "nIters" = some (l₀.itersValue (bindings c).length) := by
    rw [← itersValue_of_count hcount]
    exact hreport.kept.iters
  refine ⟨?_, hnIters.trans hreport₀.kept.iters.symm, ?_, fun k => (l k).2, ?_, fun k => ?_⟩
  · rw [hnIters, length_bindings]
    simp only [hl₀, Ledger.itersValue, tally_blank]
  · refine hreport.lines.trans (Eq.trans ?_ hreport₀.lines.symm)
    exact congrArg (fun lines => some (Value.array lines))
      (List.flatMap_congr fun k _ => lineOf_of_count hcount k)
  · rw [← length_bindings]
    exact hreport.kept.times
  · refine (perm_of_count hcount k).trans (List.Perm.of_eq ?_)
    rw [hl₀, tally_blank]

theorem color_safe_on_every_schedule_sweep :
    ∃ e, generate sweep { execution := .threads, timing := true } ["f();", "u();"] = .ok e ∧
      let stmts := programOf sweep { execution := .threads, timing := true } ["f();", "u();"]
      (∃ σ, Runs sweepPlatform stmts (entry 7 1 0 0) σ) ∧
      ∀ σ, Runs sweepPlatform stmts (entry 7 1 0 0) σ →
        (∃ vs : List (Visit Nat), vs.Perm [⟨0, 0, 1⟩, ⟨1, 0, 11⟩, ⟨1, 1, 12⟩] ∧
          vs.Pairwise (fun v w => v.color ≤ w.color) ∧
          List.Forall₂ (fun r e => KernelRun sweepPlatform ["f();", "u();"] r.1 r.2.1 r.2.2 e)
            (schedule sweep vs) σ.trace) ∧
        σ.frames.value? "nIters" = some (.array [.int 2400, .int 2403]) := by
  obtain ⟨e, he⟩ := generate_sweep { execution := .threads, timing := true }
  obtain ⟨-, hruns, time, σ₀, -, hsafe⟩ :=
    color_safe_on_every_schedule he (.inl rfl) sweepPlatform 7 1 0 0
  refine ⟨e, he, hruns, fun σ hσ => ?_⟩
  obtain ⟨⟨vs, hperm, hpair, htrace⟩, hsums⟩ := hsafe σ hσ
  refine ⟨⟨vs, hperm, hpair, htrace.imp fun _ _ h => h.1⟩, ?_⟩
  obtain ⟨hiters, -⟩ := hsums rfl
  rw [hiters, length_loops_sweep]
  rfl

end SparseTiling.Executor
