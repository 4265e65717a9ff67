import Mathlib.Tactic
import SparseTiling.Proofs.Code.Team
import SparseTiling.Proofs.Executor.Worker

/-!
# A color on several workers

The workers of a color go through stages: their sums are declared, they run tiles, they
wait for each other, they merge. Whatever the order of their steps, the sums of all and
those that are not merged yet together stay the sums of the tiles that have run.

* `ColorJob`: a color of an executor with threads.
* `Stage`, `ColorJob.worker`: the stages of a worker.
* `Reached`: what holds of a team at any time; `Reached.step`: every step keeps it.
* `Reached.completes`: no team is ever stuck.
* `steps_joined`: what a team leaves.
-/

namespace SparseTiling.Executor

open Code

variable {Obj : Type}

/-- A color of an executor with threads. -/
structure ColorJob (Obj : Type) where
  p : Platform Obj
  s : Settings
  bs : List Binding
  kernel : Binding → String
  x : Obj
  region : Int
  rank : Int
  color : Nat
  shared : s.execution.isShared
  numbered : Numbered bs

/-- The stages of a worker, with its sums where it has some. The first two are there with
timing only. -/
inductive Stage
  | fresh
  | half
  | working (own : Ledger)
  | merging (own : Ledger)
  | finished (own : Ledger)

namespace Stage

/-- Sums that are not merged yet. -/
def pending (k : Nat) : Stage → Int × Multiset Int
  | .working own | .merging own => own.count k
  | _ => 0

/-- Tiles are still to run. -/
def Early (timing : Bool) : Stage → Prop
  | .fresh | .half => timing
  | .working _ => True
  | _ => False

/-- The shared loop is over. -/
def wait : Stage → Stage
  | .working own => .merging own
  | st => st

theorem pending_wait (k : Nat) (st : Stage) : st.wait.pending k = st.pending k := by
  cases st <;> rfl

/-- All tiles have run. -/
def Late : Stage → Prop
  | .merging _ | .finished _ => True
  | _ => False

end Stage

namespace ColorJob

variable (J : ColorJob Obj)

def loops : Nat := J.bs.length

/-- The time of the kernel at a position on a tile. -/
def time : Obj → Nat → Int := lap J.p J.kernel J.bs [J.x, J.x]

/-- The number of tiles of the color. -/
def size : Nat := tilesOf J.p J.x J.color

/-- The tiles that are there, for a list of indices. -/
def tiles (order : List Nat) : List (Visit Obj) := tilesAt J.p J.x J.region J.color order

/-- The variables that the workers share. -/
def frames (l : Ledger) : Frames Obj :=
  colorFrames J.p J.s J.loops J.x J.region J.rank J.color l

/-- The end of a worker: with timing it merges. -/
def mergeBlock : List Stmt :=
  if J.s.timing then [.pragma "omp critical", .scope [mergeLoop J.loops]] else []

/-- The shared loop over the tiles, and what follows. -/
def shareLoop : List Stmt :=
  .pragma "omp for schedule(dynamic)" ::
    .forRange "j" (.ident tileCount) (tileBody J.s J.bs J.kernel) :: J.mergeBlock

def freshIters : Stmt := .declare "int" (sized workerItersVar J.loops) (.list [.int 0])

def freshTimes : Stmt := .declareBare "std::vector<double>" (sized workerTimesVar J.loops)

/-- All that a worker runs. -/
def stmts : List Stmt :=
  if J.s.timing then J.freshIters :: J.freshTimes :: J.shareLoop else J.shareLoop

/-- The worker at a stage. -/
def worker : Stage → Worker Obj
  | .fresh => ⟨[[]], J.freshIters :: J.freshTimes :: J.shareLoop⟩
  | .half => ⟨[[(workerItersVar, Ledger.blank.itersValue J.loops)]], J.freshTimes :: J.shareLoop⟩
  | .working own => ⟨[workerFrame J.s J.loops own], J.shareLoop⟩
  | .merging own => ⟨[workerFrame J.s J.loops own], J.mergeBlock⟩
  | .finished own => ⟨[workerFrame J.s J.loops own], []⟩

/-- How far the shared loop is. -/
inductive Phase : Option (List Nat) → List Nat → List Stage → Prop
  | before {stages} : (∀ st ∈ stages, st.Early J.s.timing) → Phase none [] stages
  | during {ks done stages} : (done ++ ks).Perm (List.range J.size) →
      (∀ st ∈ stages, st.Early J.s.timing) → Phase (some ks) done stages
  | after {done stages} : done.Perm (List.range J.size) → (∀ st ∈ stages, st.Late) →
      Phase none done stages

/-- **What holds of a team at any time.** The stages of its workers are given, the sums of
all, the tiles that have run, and their events. The sums of all had a start, and so had
the trace. -/
structure Reached (base : Ledger) (past : List (Event Obj)) (t : Team Obj) (stages : List Stage)
    (l : Ledger) (done : List Nat) (events : List (Event Obj)) : Prop where
  shared : t.shared = J.frames l
  workers : t.workers = stages.map J.worker
  staffed : stages ≠ []
  trace : t.trace = past ++ events
  ran : RanAll J.p J.kernel J.time J.bs (J.tiles done) events
  sums : J.s.timing → ∀ k, l.count k + (stages.map (Stage.pending k)).sum
    = base.count k + gain J.p J.time (J.tiles done) k
  phase : J.Phase t.pool done stages

section Workers

variable {J} {st : Stage}

theorem worker_frames_length : (J.worker st).frames.length = 1 := by
  cases st <;> rfl

theorem tiles_append (order order' : List Nat) :
    J.tiles (order ++ order') = J.tiles order ++ J.tiles order' :=
  tilesAt_append order order'

/-- Only a worker that runs tiles is before a shared loop. -/
theorem stage_of_atLoop {var : String} {bound : Expr} {body rest : List Stmt}
    (h : (J.worker st).AtLoop var bound body rest) : ∃ own, st = .working own ∧
      var = "j" ∧ bound = .ident tileCount ∧ body = tileBody J.s J.bs J.kernel := by
  obtain ⟨text, hshare, htodo, -⟩ := h
  cases st with
  | fresh => simp [worker, freshIters, Stmt.declare] at htodo
  | half => simp [worker, freshTimes, Stmt.declareBare] at htodo
  | working own =>
    simp only [worker, shareLoop, List.cons.injEq, Stmt.forRange.injEq] at htodo
    obtain ⟨-, ⟨rfl, rfl, rfl⟩, -⟩ := htodo
    exact ⟨own, rfl, rfl, rfl, rfl⟩
  | merging own =>
    simp only [worker, mergeBlock] at htodo
    split at htodo <;> simp at htodo
  | finished own => simp [worker] at htodo

/-- There are no pragmas around kernels. -/
theorem plain_kernelStmts (s : Settings) (kernel : Binding → String) (b : Binding) :
    plain (kernelStmts s kernel b) := by
  have hlocals : plain (b.localMaps.map fun d => Stmt.declare "iterations_list&" d.2
      (Library.tileGetLocalMap tileVar b.position d.1)) := by
    refine plain_of_forall fun s hs => ?_
    obtain ⟨d, -, rfl⟩ := List.mem_map.1 hs
    rfl
  unfold kernelStmts prologue epilogue
  simp only [List.cons_append, List.append_assoc]
  refine plain_cons.2 ⟨rfl, plain_cons.2 ⟨rfl, plain_append.2 ⟨hlocals, ?_⟩⟩⟩
  split <;> rfl

theorem plain_tileBody (s : Settings) (bs : List Binding) (kernel : Binding → String) :
    plain (tileBody s bs kernel) := by
  have hkernels : plain (bs.flatMap (kernelStmts s kernel)) := by
    induction bs with
    | nil => rfl
    | cons b bs ih => exact plain_append.2 ⟨plain_kernelStmts s kernel b, ih⟩
  unfold tileBody
  refine plain_append.2 ⟨plain_append.2 ⟨rfl, ?_⟩, hkernels⟩
  split <;> rfl

/-- A worker at the shared loop. -/
theorem atLoop_working (own : Ledger) : (J.worker (.working own)).AtLoop "j" (.ident tileCount)
    (tileBody J.s J.bs J.kernel) J.mergeBlock :=
  ⟨_, rfl, rfl, plain_tileBody J.s J.bs J.kernel⟩

end Workers

section Steps

variable {J} {base l l' own : Ledger} {past events events' : List (Event Obj)} {t t' : Team Obj}
  {stages sb sa : List Stage} {st st' : Stage} {done done' : List Nat} {pool : Option (List Nat)}

theorem Phase.early_or_late (h : J.Phase pool done stages) (hst : st ∈ stages) :
    st.Early J.s.timing ∨ st.Late := by
  cases h with
  | before he => exact .inl (he st hst)
  | during _ he => exact .inl (he st hst)
  | after _ hl => exact .inr (hl st hst)

theorem Phase.replace (h : J.Phase pool done (sb ++ st :: sa))
    (hearly : st.Early J.s.timing → st'.Early J.s.timing) (hlate : st.Late → st'.Late) :
    J.Phase pool done (sb ++ st' :: sa) := by
  have hall : ∀ P : Stage → Prop, (P st → P st') → (∀ s ∈ sb ++ st :: sa, P s) →
      ∀ s ∈ sb ++ st' :: sa, P s := by
    intro P himp hP s hs
    rcases List.mem_append.1 hs with hs | hs
    · exact hP s (List.mem_append_left _ hs)
    · rcases List.mem_cons.1 hs with rfl | hs
      · exact himp (hP st (by simp))
      · exact hP s (by simp [hs])
  cases h with
  | before he => exact .before (hall _ hearly he)
  | during hp he => exact .during hp (hall _ hearly he)
  | after hp hl => exact .after hp (hall _ hlate hl)

theorem sum_pending (k : Nat) : ((sb ++ st :: sa).map (Stage.pending k)).sum
    = (sb.map (Stage.pending k)).sum + st.pending k + (sa.map (Stage.pending k)).sum := by
  simp [add_assoc]

/-- The worker that moves has a stage, and so have those around it. -/
theorem Reached.split (h : J.Reached base past t stages l done events)
    {before after : List (Worker Obj)} {w : Worker Obj} (hw : t.workers = before ++ w :: after) :
    ∃ sb st sa, stages = sb ++ st :: sa ∧ before = sb.map J.worker ∧ w = J.worker st ∧
      after = sa.map J.worker := by
  rw [h.workers] at hw
  obtain ⟨sb, rest, rfl, rfl, hrest⟩ := List.map_eq_append_iff.1 hw
  obtain ⟨st, sa, rfl, rfl, rfl⟩ := List.map_eq_cons_iff.1 hrest
  exact ⟨sb, st, sa, rfl, rfl, rfl, rfl⟩

theorem Reached.workers_eq (h : J.Reached base past t (sb ++ st :: sa) l done events) :
    t.workers = sb.map J.worker ++ J.worker st :: sa.map J.worker := by
  rw [h.workers, List.map_append, List.map_cons]

theorem Reached.worker_mem (h : J.Reached base past t stages l done events) (hst : st ∈ stages) :
    J.worker st ∈ t.workers := by
  rw [h.workers]
  exact List.mem_map_of_mem hst

/-- What a worker sees. -/
theorem Reached.view (h : J.Reached base past t stages l done events) (w : Worker Obj) :
    t.view w = ⟨w.frames ++ J.frames l, t.now, past ++ events⟩ := by
  rw [Team.view, h.shared, h.trace]

theorem Reached.eval_tileCount (h : J.Reached base past t stages l done events) (own : Ledger) :
    eval J.p (t.view (J.worker (.working own))) (.ident tileCount)
      = some (.int (J.p.tilesPerColor J.x J.color)) := by
  rw [h.view]
  exact (Frames.value?_cons_of_none (lookup_workerFrame (by decide) (by decide))).trans
    (Frames.value?_cons_of_some rfl)

/-- A worker has moved to another stage. -/
theorem Reached.moved (t : Team Obj) (pool : Option (List Nat)) (st st' : Stage) {f : Frame Obj}
    {todo : List Stmt} {now' : Int} (hst : J.worker st' = ⟨[f], todo⟩)
    (hran : RanAll J.p J.kernel J.time J.bs (J.tiles done') events')
    (hsums : J.s.timing → ∀ k, l'.count k + ((sb ++ st' :: sa).map (Stage.pending k)).sum
      = base.count k + gain J.p J.time (J.tiles done') k)
    (hphase : J.Phase pool done' (sb ++ st' :: sa)) :
    J.Reached base past
      { t.moved (sb.map J.worker) (J.worker st) (sa.map J.worker)
          ⟨f :: J.frames l', now', past ++ events'⟩ todo with pool := pool }
      (sb ++ st' :: sa) l' done' events' where
  shared := by
    simp only [Team.moved, worker_frames_length]
    rfl
  workers := by
    simp only [Team.moved, worker_frames_length, List.map_append, List.map_cons, hst]
    rfl
  staffed := by simp
  trace := rfl
  ran := hran
  sums := hsums
  phase := hphase

/-- A worker declares its sums. -/
theorem Reached.plain (h : J.Reached base past t stages l done events)
    {before after : List (Worker Obj)} {w : Worker Obj} {s : Stmt} {rest : List Stmt}
    {σ : State Obj} (hw : t.workers = before ++ w :: after) (htodo : w.todo = s :: rest)
    (hs : Code.plain [s]) (hexec : exec J.p s (t.view w) = some (.next, σ)) :
    ∃ stages', J.Reached base past (t.moved before w after σ rest) stages' l done events := by
  obtain ⟨sb, st, sa, rfl, rfl, rfl, rfl⟩ := h.split hw
  rw [h.view] at hexec
  -- before the shared loop nothing is charged, so the sums stay as they are
  have hsums : ∀ st', (∀ k, st'.pending k = st.pending k) → J.s.timing →
      ∀ k, l.count k + ((sb ++ st' :: sa).map (Stage.pending k)).sum
        = base.count k + gain J.p J.time (J.tiles done) k := by
    intro st' hpending ht k
    rw [sum_pending, hpending, ← sum_pending]
    exact h.sums ht k
  have hstage : st.Early J.s.timing ∨ st.Late := h.phase.early_or_late (by simp)
  cases st with
  | fresh =>
    obtain ⟨rfl, rfl⟩ := List.cons.inj htodo
    obtain rfl : _ = σ := by simpa using exec_freshIters.symm.trans hexec
    exact ⟨sb ++ .half :: sa, Reached.moved t t.pool .fresh .half rfl h.ran
      (hsums _ fun k => rfl) (h.phase.replace (fun he => he) fun hl => hl)⟩
  | half =>
    have ht : J.s.timing := hstage.elim (fun he => he) False.elim
    obtain ⟨rfl, rfl⟩ := List.cons.inj htodo
    obtain rfl : _ = σ := by simpa using (exec_freshTimes ht).symm.trans hexec
    exact ⟨sb ++ .working .blank :: sa, Reached.moved t t.pool .half (.working .blank) rfl h.ran
      (hsums _ fun k => rfl) (h.phase.replace (fun _ => trivial) False.elim)⟩
  | working own =>
    obtain ⟨rfl, -⟩ := List.cons.inj htodo
    exact absurd hs not_plain_pragma
  | merging own =>
    simp only [worker, mergeBlock] at htodo
    split at htodo
    · obtain ⟨rfl, -⟩ := List.cons.inj htodo
      exact absurd hs not_plain_pragma
    · cases htodo
  | finished own => cases htodo

/-- The shared loop begins, with all tiles of the color. -/
theorem Reached.started {w : Worker Obj} {var : String} {bound : Expr} {body rest : List Stmt}
    {m : Int} (h : J.Reached base past t stages l done events) (hpool : t.pool = none)
    (hw : w ∈ t.workers) (hloop : w.AtLoop var bound body rest)
    (hbound : eval J.p (t.view w) bound = some (.int m)) :
    J.Reached base past { t with pool := some (List.range m.toNat) } stages l done events := by
  rw [h.workers] at hw
  obtain ⟨st, hst, rfl⟩ := List.mem_map.1 hw
  obtain ⟨own, rfl, rfl, rfl, rfl⟩ := stage_of_atLoop hloop
  have hm : m = J.p.tilesPerColor J.x J.color := by
    simpa using hbound.symm.trans (h.eval_tileCount own)
  refine { h with phase := ?_ }
  -- a worker at the loop has not been through it, so this is the only time it begins
  have hphase := h.phase
  rw [hpool] at hphase
  subst hm
  cases hphase with
  | before he => exact .during (List.Perm.refl _) he
  | after _ hl => exact (hl _ hst).elim

/-- A worker runs a tile. -/
theorem iteration_worker (own l : Ledger) (k : Nat) (now : Int) (trace : List (Event Obj)) :
    ∃ flow now' events, iteration "j" (execAll J.p (tileBody J.s J.bs J.kernel)) k
        ⟨(J.worker (.working own)).frames ++ J.frames l, now, trace⟩
        = some (flow, ⟨workerFrame J.s J.loops (tally J.p J.time (J.tiles [k]) own) :: J.frames l,
          now', trace ++ events⟩) ∧
      flow ≠ .leave ∧ RanAll J.p J.kernel J.time J.bs (J.tiles [k]) events := by
  have hready : Ready J.s J.bs.length J.x J.region J.color own
      (workerFrame J.s J.loops own :: J.frames l) := ready_worker J.shared
  obtain ⟨flow, now', events, hrun, hflow, hran⟩ :=
    iteration_index (p := J.p) J.kernel k now trace J.numbered hready
  have hobjects : Frames.objects (workerFrame J.s J.loops own :: J.frames l) = [J.x, J.x] :=
    objects_worker
  rw [hobjects] at hrun hran
  refine ⟨flow, now', events, hrun.trans ?_, hflow, hran⟩
  rw [show J.bs.length = J.loops from rfl, settle_worker J.shared]
  rfl

/-- A tile has run: its worker has its sums, and the pool is smaller. -/
theorem Reached.took {before after : List (Worker Obj)} {w : Worker Obj} {var : String}
    {bound : Expr} {body rest : List Stmt} {ks : List Nat} {k : Nat} {flow : Flow} {σ : State Obj}
    (h : J.Reached base past t stages l done events) (hw : t.workers = before ++ w :: after)
    (hloop : w.AtLoop var bound body rest) (hpool : t.pool = some ks) (hk : k ∈ ks)
    (hrun : iteration var (execAll J.p body) k (t.view w) = some (flow, σ)) :
    ∃ stages' events', J.Reached base past
      { t.moved before w after σ w.todo with pool := some (ks.erase k) } stages' l (done ++ [k])
      events' := by
  obtain ⟨sb, st, sa, rfl, rfl, rfl, rfl⟩ := h.split hw
  obtain ⟨own, rfl, rfl, rfl, rfl⟩ := stage_of_atLoop hloop
  rw [h.view] at hrun
  obtain ⟨flow', now', events', hrun', -, hran⟩ :=
    iteration_worker (J := J) own l k t.now (past ++ events)
  obtain ⟨rfl, rfl⟩ : flow' = flow ∧ _ = σ := by simpa using hrun'.symm.trans hrun
  let own' := tally J.p J.time (J.tiles [k]) own
  refine ⟨sb ++ .working own' :: sa, events ++ events',
    Reached.moved t _ (.working own) (.working own') rfl ?_ ?_ ?_⟩
  · rw [tiles_append]
    exact h.ran.append hran
  · intro ht j
    have hown : (Stage.working own').pending j
        = (Stage.working own).pending j + gain J.p J.time (J.tiles [k]) j := count_tally
    have hsums := h.sums ht j
    rw [sum_pending] at hsums ⊢
    -- the tile is charged to the worker alone; the sums of all wait for the merge
    rw [tiles_append, gain_append, ← add_assoc (base.count j), ← hsums, hown]
    abel
  · have hphase := h.phase
    rw [hpool] at hphase
    have hreplaced : J.Phase (some ks) done (sb ++ .working own' :: sa) :=
      hphase.replace (fun he => he) fun hl => hl
    cases hreplaced with
    | during hperm he =>
      refine .during (List.Perm.trans ?_ hperm) he
      rw [List.append_assoc]
      exact ((List.perm_cons_erase hk).symm).append_left done

/-- All tiles have run, and the workers go on together. -/
theorem Reached.passed (h : J.Reached base past t stages l done events)
    (hpool : t.pool = some [])
    (hloops : ∀ w ∈ t.workers, ∃ var bound body rest, w.AtLoop var bound body rest) :
    J.Reached base past { t with
      pool := none, workers := t.workers.map fun w => { w with todo := w.todo.drop 2 } }
      (stages.map Stage.wait) l done events := by
  have hworking : ∀ st ∈ stages, ∃ own, st = .working own := by
    intro st hst
    obtain ⟨var, bound, body, rest, hloop⟩ := hloops _ (h.worker_mem hst)
    obtain ⟨own, rfl, -⟩ := stage_of_atLoop hloop
    exact ⟨own, rfl⟩
  refine ⟨h.shared, ?_, by simpa using h.staffed, h.trace, h.ran, ?_, ?_⟩
  · simp only [h.workers, List.map_map]
    refine List.map_congr_left fun st hst => ?_
    obtain ⟨own, rfl⟩ := hworking st hst
    rfl
  · intro ht k
    rw [← h.sums ht k, List.map_map]
    refine congrArg (fun sums => l.count k + List.sum sums) (List.map_congr_left fun st _ => ?_)
    exact Stage.pending_wait k st
  · have hphase := h.phase
    rw [hpool] at hphase
    cases hphase with
    | during hperm _ =>
      refine .after (by simpa using hperm) fun st' hst' => ?_
      obtain ⟨st, hst, rfl⟩ := List.mem_map.1 hst'
      obtain ⟨own, rfl⟩ := hworking st hst
      trivial

/-- A worker has merged its sums. -/
theorem Reached.merged {before after : List (Worker Obj)} {w : Worker Obj} {text : String}
    {body rest : List Stmt} {σ : State Obj} (h : J.Reached base past t stages l done events)
    (hw : t.workers = before ++ w :: after)
    (htodo : w.todo = .pragma text :: .scope body :: rest)
    (hrun : block [] (execAll J.p body) (t.view w) = some (.next, σ)) :
    ∃ stages' l', J.Reached base past (t.moved before w after σ rest) stages' l' done events := by
  obtain ⟨sb, st, sa, rfl, rfl, rfl, rfl⟩ := h.split hw
  rw [h.view] at hrun
  cases st with
  | fresh => simp [worker, freshIters, Stmt.declare] at htodo
  | half => simp [worker, freshTimes, Stmt.declareBare] at htodo
  | working own => simp [worker, shareLoop] at htodo
  | finished own => simp [worker] at htodo
  | merging own =>
    simp only [worker, mergeBlock] at htodo
    split at htodo
    · next ht =>
      simp only [List.cons.injEq, Stmt.scope.injEq] at htodo
      obtain ⟨-, rfl, rfl⟩ := htodo
      obtain rfl : _ = σ := by simpa using (block_merge ht).symm.trans hrun
      refine ⟨sb ++ .finished own :: sa, l.join own,
        Reached.moved t t.pool (.merging own) (.finished own) rfl h.ran ?_
          (h.phase.replace (fun he => he) fun hl => hl)⟩
      intro _ k
      -- what was pending moves to the sums of all, so it counts once before and once after
      have hsums := h.sums ht k
      rw [sum_pending] at hsums ⊢
      rw [← hsums, count_join, show (Stage.finished own).pending k = 0 from rfl,
        show (Stage.merging own).pending k = own.count k from rfl]
      abel
    · cases htodo

/-- **Every step keeps the promise.** -/
theorem Reached.step (h : J.Reached base past t stages l done events) (hstep : Step J.p t t') :
    ∃ stages' l' done' events', J.Reached base past t' stages' l' done' events' := by
  cases hstep with
  | plain hw htodo hs hexec =>
    obtain ⟨stages', h'⟩ := h.plain hw htodo hs hexec
    exact ⟨stages', l, done, events, h'⟩
  | start hpool hw hloop hbound => exact ⟨stages, l, done, events, h.started hpool hw hloop hbound⟩
  | take hw hloop hpool hk hrun _ =>
    obtain ⟨stages', events', h'⟩ := h.took hw hloop hpool hk hrun
    exact ⟨stages', l, _, events', h'⟩
  | pass hpool hloops => exact ⟨_, l, done, events, h.passed hpool hloops⟩
  | critical hw _ htodo _ hrun =>
    obtain ⟨stages', l', h'⟩ := h.merged hw htodo hrun
    exact ⟨stages', l', done, events, h'⟩

theorem Reached.steps (h : J.Reached base past t stages l done events) (hsteps : Steps J.p t t') :
    ∃ stages' l' done' events', J.Reached base past t' stages' l' done' events' := by
  induction hsteps with
  | refl => exact ⟨stages, l, done, events, h⟩
  | tail _ hstep ih =>
    obtain ⟨stages', l', done', events', h'⟩ := ih
    exact h'.step hstep

/-- With nothing left to run, all tiles have run and all sums are merged. -/
theorem Reached.joined (h : J.Reached base past t stages l done events) (hj : t.Joined) :
    done.Perm (List.range J.size) ∧
      (J.s.timing → ∀ k, l.count k = base.count k + gain J.p J.time (J.tiles done) k) := by
  have htodo : ∀ st ∈ stages, (J.worker st).todo = [] := fun st hst => hj _ (h.worker_mem hst)
  have hlate : ∀ st ∈ stages, ¬ st.Early J.s.timing := by
    intro st hst he
    cases st with
    | fresh => cases htodo _ hst
    | half => cases htodo _ hst
    | working own => cases htodo _ hst
    | merging own => exact he
    | finished own => exact he
  obtain ⟨st, hst⟩ := List.exists_mem_of_ne_nil _ h.staffed
  constructor
  · have hphase := h.phase
    generalize t.pool = pool at hphase
    cases hphase with
    | before he => exact absurd (he st hst) (hlate st hst)
    | during _ he => exact absurd (he st hst) (hlate st hst)
    | after hperm _ => exact hperm
  · intro ht k
    have hzero : (stages.map (Stage.pending k)).sum = 0 := by
      refine List.sum_eq_zero fun x hx => ?_
      obtain ⟨st, hst, rfl⟩ := List.mem_map.1 hx
      cases st with
      | merging own =>
        have := htodo _ hst
        simp [worker, mergeBlock, ht] at this
      | working own => exact absurd trivial (hlate _ hst)
      | fresh => rfl
      | half => rfl
      | finished own => rfl
    have := h.sums ht k
    rwa [hzero, add_zero] at this

/-- The stage in which workers start. -/
def firstStage (J : ColorJob Obj) : Stage := if J.s.timing then .fresh else .working .blank

theorem reached_fork (J : ColorJob Obj) (base : Ledger) (now : Int) (past : List (Event Obj))
    {count : Nat} (hcount : 0 < count) :
    J.Reached base past (Team.fork count J.stmts ⟨J.frames base, now, past⟩)
      (List.replicate count J.firstStage) base [] [] := by
  have hworker : J.worker J.firstStage = ⟨[[]], J.stmts⟩ := by
    unfold firstStage stmts
    by_cases ht : J.s.timing
    · rw [if_pos ht, if_pos ht]
      rfl
    · rw [if_neg ht, if_neg ht, worker, workerFrame, if_neg ht]
  have hpending : ∀ k, J.firstStage.pending k = 0 := by
    intro k
    unfold firstStage
    split <;> rfl
  refine ⟨rfl, ?_, ?_, (List.append_nil _).symm, .nil, ?_, .before ?_⟩
  · rw [List.map_replicate, hworker]
    rfl
  · intro hnil
    rw [List.replicate_eq_nil_iff] at hnil
    omega
  · intro _ k
    rw [List.map_replicate, hpending]
    simp [gain, tiles, tilesAt]
  · intro st hst
    rw [List.eq_of_mem_replicate hst]
    unfold firstStage
    split
    · next ht => exact ht
    · trivial

/-- **What a team leaves:** all tiles of the color have run, in some order, and with timing
the sums of all have grown by those of the tiles. -/
theorem steps_joined {count : Nat} {now : Int} (hcount : 0 < count)
    (hsteps : Steps J.p (Team.fork count J.stmts ⟨J.frames base, now, past⟩) t)
    (hj : t.Joined) :
    ∃ l order now' events, t.state = ⟨J.frames l, now', past ++ events⟩ ∧
      order.Perm (List.range J.size) ∧
      RanAll J.p J.kernel J.time J.bs (J.tiles order) events ∧
      (J.s.timing → ∀ k, l.count k = base.count k + gain J.p J.time (J.tiles order) k) := by
  obtain ⟨stages, l, done, events, h⟩ := (reached_fork J base now past hcount).steps hsteps
  obtain ⟨hperm, hsums⟩ := h.joined hj
  refine ⟨l, done, t.now, events, ?_, hperm, h.ran, hsums⟩
  rw [Team.state, h.shared, h.trace]

end Steps

/-! ## No team is stuck -/

section Progress

variable {J} {base l : Ledger} {past events : List (Event Obj)} {t : Team Obj}
  {stages sb sa : List Stage} {st : Stage} {done : List Nat}

/-- What is left to do. Leaving the shared loop outweighs beginning another. -/
def weight (J : ColorJob Obj) (t : Team Obj) : Nat :=
  (J.size + 2) * (t.workers.map fun w => w.todo.length).sum +
    match t.pool with
    | none => J.size + 1
    | some ks => ks.length

theorem weight_moved (hw : t.workers = sb.map J.worker ++ J.worker st :: sa.map J.worker)
    {σ : State Obj} {todo : List Stmt} (htodo : todo.length < (J.worker st).todo.length) :
    J.weight (t.moved (sb.map J.worker) (J.worker st) (sa.map J.worker) σ todo)
      < J.weight t := by
  have hpool : (t.moved (sb.map J.worker) (J.worker st) (sa.map J.worker) σ todo).pool = t.pool :=
    rfl
  unfold weight
  rw [hpool, hw]
  refine Nat.add_lt_add_right (Nat.mul_lt_mul_of_pos_left ?_ (by omega)) _
  simp only [Team.moved, List.map_append, List.map_cons, List.sum_append, List.sum_cons]
  omega

/-- A worker that has not declared its sums can do so. -/
theorem Reached.progress_declare (h : J.Reached base past t (sb ++ st :: sa) l done events)
    (hst : st = .fresh ∨ st = .half) : ∃ t', Step J.p t t' ∧ J.weight t' < J.weight t := by
  have hw := h.workers_eq
  rcases hst with rfl | rfl
  · obtain ⟨σ, hexec⟩ : ∃ σ, exec J.p J.freshIters (t.view (J.worker .fresh)) = some (.next, σ) :=
      ⟨_, by rw [h.view]; exact exec_freshIters⟩
    exact ⟨_, .plain hw rfl rfl hexec, weight_moved hw (by simp [worker])⟩
  · have ht : J.s.timing :=
      (h.phase.early_or_late (by simp : Stage.half ∈ _)).elim (fun he => he) False.elim
    obtain ⟨σ, hexec⟩ : ∃ σ, exec J.p J.freshTimes (t.view (J.worker .half)) = some (.next, σ) :=
      ⟨_, by rw [h.view]; exact exec_freshTimes ht⟩
    exact ⟨_, .plain hw rfl rfl hexec, weight_moved hw (by simp [worker])⟩

/-- A worker that has run its tiles can merge. -/
theorem Reached.progress_merge {own : Ledger}
    (h : J.Reached base past t (sb ++ .merging own :: sa) l done events) (ht : J.s.timing) :
    ∃ t', Step J.p t t' ∧ J.weight t' < J.weight t := by
  have hw := h.workers_eq
  have htodo : (J.worker (.merging own)).todo
      = .pragma "omp critical" :: .scope [mergeLoop J.loops] :: [] := by
    rw [worker, mergeBlock, if_pos ht]
  obtain ⟨σ, hrun⟩ : ∃ σ, block [] (execAll J.p [mergeLoop J.loops])
      (t.view (J.worker (.merging own))) = some (.next, σ) :=
    ⟨_, by rw [h.view]; exact block_merge ht⟩
  exact ⟨_, .critical hw rfl htodo rfl hrun, weight_moved hw (by simp [htodo])⟩

theorem Reached.progress_start {own : Ledger} (h : J.Reached base past t stages l done events)
    (hst : .working own ∈ stages) (hpool : t.pool = none) :
    ∃ t', Step J.p t t' ∧ J.weight t' < J.weight t := by
  refine ⟨_, .start hpool (h.worker_mem hst) (atLoop_working own) (h.eval_tileCount own), ?_⟩
  unfold weight
  rw [hpool]
  refine Nat.add_lt_add_left ?_ _
  show (List.range J.size).length < J.size + 1
  rw [List.length_range]
  exact Nat.lt_succ_self _

theorem Reached.progress_take {own : Ledger} {k : Nat} {ks : List Nat}
    (h : J.Reached base past t (sb ++ .working own :: sa) l done events)
    (hpool : t.pool = some (k :: ks)) : ∃ t', Step J.p t t' ∧ J.weight t' < J.weight t := by
  have hw := h.workers_eq
  obtain ⟨flow, now', events', hrun, hflow, -⟩ :=
    iteration_worker (J := J) own l k t.now (past ++ events)
  rw [← h.view] at hrun
  refine ⟨_, .take hw (atLoop_working own) hpool List.mem_cons_self hrun hflow, ?_⟩
  unfold weight
  rw [hpool, hw]
  simp [Team.moved]

theorem Reached.progress_pass (h : J.Reached base past t stages l done events)
    (hworking : ∀ st ∈ stages, ∃ own, st = .working own) (hpool : t.pool = some []) :
    ∃ t', Step J.p t t' ∧ J.weight t' < J.weight t := by
  have hloops : ∀ w ∈ t.workers, ∃ var bound body rest, w.AtLoop var bound body rest := by
    intro w hw
    rw [h.workers] at hw
    obtain ⟨st, hst, rfl⟩ := List.mem_map.1 hw
    obtain ⟨own, rfl⟩ := hworking st hst
    exact ⟨_, _, _, _, atLoop_working own⟩
  -- each worker leaves two statements behind
  have hsum : ∀ stages : List Stage, (∀ st ∈ stages, ∃ own, st = .working own) →
      ((stages.map J.worker).map fun w => w.todo.length).sum
        = ((stages.map J.worker).map fun w => (w.todo.drop 2).length).sum + 2 * stages.length := by
    intro stages hall
    induction stages with
    | nil => rfl
    | cons st stages ih =>
      obtain ⟨own, rfl⟩ := hall _ List.mem_cons_self
      have := ih fun st hst => hall st (List.mem_cons_of_mem _ hst)
      have hlen : (J.worker (.working own)).todo.length
          = ((J.worker (.working own)).todo.drop 2).length + 2 := rfl
      simp only [List.map_cons, List.sum_cons, List.length_cons] at this ⊢
      omega
  have hpos : 0 < stages.length := List.length_pos_of_ne_nil h.staffed
  refine ⟨_, .pass hpool hloops, ?_⟩
  unfold weight
  rw [hpool, h.workers, hsum stages hworking]
  simp only [List.map_map, Function.comp_def, List.length_nil]
  nlinarith

/-- A team with something left to run can do a step, and has less left. -/
theorem Reached.progress (h : J.Reached base past t stages l done events) (hj : ¬ t.Joined) :
    ∃ t', Step J.p t t' ∧ J.weight t' < J.weight t := by
  by_cases hdeclare : ∃ st ∈ stages, st = .fresh ∨ st = .half
  · obtain ⟨st, hst, hd⟩ := hdeclare
    obtain ⟨sb, sa, rfl⟩ := List.append_of_mem hst
    exact h.progress_declare hd
  have hworking : (∀ st ∈ stages, st.Early J.s.timing) → ∀ st ∈ stages, ∃ own, st = .working own := by
    intro he st hst
    cases st with
    | fresh => exact absurd ⟨_, hst, .inl rfl⟩ hdeclare
    | half => exact absurd ⟨_, hst, .inr rfl⟩ hdeclare
    | working own => exact ⟨own, rfl⟩
    | merging own => exact (he _ hst).elim
    | finished own => exact (he _ hst).elim
  obtain ⟨st, hst⟩ := List.exists_mem_of_ne_nil _ h.staffed
  have hphase := h.phase
  generalize hpool : t.pool = pool at hphase
  cases hphase with
  | before he =>
    obtain ⟨own, rfl⟩ := hworking he st hst
    exact h.progress_start hst hpool
  | @during ks _ _ _ he =>
    cases ks with
    | nil => exact h.progress_pass (hworking he) hpool
    | cons k ks =>
      obtain ⟨own, rfl⟩ := hworking he st hst
      obtain ⟨sb, sa, rfl⟩ := List.append_of_mem hst
      exact h.progress_take hpool
  | after _ hl =>
    -- somebody has something left to run, and that can only be the merging
    simp only [Team.Joined, h.workers, List.mem_map, forall_exists_index, and_imp,
      forall_apply_eq_imp_iff₂, not_forall] at hj
    obtain ⟨st, hst, htodo⟩ := hj
    cases st with
    | merging own =>
      have ht : J.s.timing := by
        by_contra ht
        exact htodo (by rw [worker, mergeBlock, if_neg ht])
      obtain ⟨sb, sa, rfl⟩ := List.append_of_mem hst
      exact h.progress_merge ht
    | finished own => exact absurd rfl htodo
    | fresh => exact (hl _ hst).elim
    | half => exact (hl _ hst).elim
    | working own => exact (hl _ hst).elim

/-- **No team is ever stuck:** whatever it has done, it can come to its end. -/
theorem Reached.completes (h : J.Reached base past t stages l done events) :
    ∃ t', Steps J.p t t' ∧ t'.Joined := by
  -- a step may only be taken where the promise holds, so the two are carried together
  induction hw : J.weight t using Nat.strong_induction_on generalizing t stages l done events with
  | _ m ih =>
    by_cases hj : t.Joined
    · exact ⟨t, .refl, hj⟩
    · obtain ⟨t₁, hstep, hlt⟩ := h.progress hj
      obtain ⟨stages', l', done', events', h'⟩ := h.step hstep
      obtain ⟨t', hsteps, hj'⟩ := ih _ (hw ▸ hlt) h' rfl
      exact ⟨t', .head hstep hsteps, hj'⟩

end Progress

end ColorJob

end SparseTiling.Executor
