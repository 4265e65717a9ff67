import Mathlib.Tactic
import SparseTiling.Proofs.Executor.Report

/-!
# Workers of an executor

With threads, the tiles of a color are shared by workers. With timing, each worker keeps
sums of its own, which start empty in every color, and adds them to those of all when the
tiles of the color are done.

* `workerFrame`, `colorFrames`: the variables of a worker, and those that workers share.
* `Ledger.count`: sums, with the times in no order.
* `exec_freshIters`, `exec_freshTimes`, `block_merge`: the beginning and the end of a worker.
-/

namespace SparseTiling.Executor

open Code

variable {Obj : Type}

/-! ## Sums without order -/

/-- The iterations and the times of a loop, the times in no order. -/
def Ledger.count (l : Ledger) (k : Nat) : Int × Multiset Int := ((l k).1, ((l k).2 : Multiset Int))

/-- The sums of two. -/
def Ledger.join (l l' : Ledger) : Ledger := fun k => ((l k).1 + (l' k).1, (l k).2 ++ (l' k).2)

/-- What visits add to the sums of a loop. -/
def gain (p : Platform Obj) (time : Obj → Nat → Int) (vs : List (Visit Obj)) (k : Nat) :
    Int × Multiset Int :=
  ((vs.map fun v => p.loopSize v.tile k).sum, ((vs.map fun v => time v.tile k : List Int)))

section Count

variable {p : Platform Obj} {time : Obj → Nat → Int} {vs ws : List (Visit Obj)} {l l' : Ledger}
  {k : Nat}

theorem count_blank : Ledger.blank.count k = 0 := rfl

theorem count_join : (l.join l').count k = l.count k + l'.count k := by
  simp [Ledger.count, Ledger.join]

theorem count_tally : (tally p time vs l).count k = l.count k + gain p time vs k := by
  simp [Ledger.count, tally, gain]

theorem gain_append : gain p time (vs ++ ws) k = gain p time vs k + gain p time ws k := by
  simp [gain]

theorem gain_perm (h : vs.Perm ws) : gain p time vs k = gain p time ws k := by
  unfold gain
  rw [(h.map _).sum_eq, Multiset.coe_eq_coe.2 (h.map fun v => time v.tile k)]

end Count

/-! ## Variables -/

/-- The arrays of a worker. -/
def workerBooks : Books := (workerTimesVar, workerItersVar)

/-- The variables of a worker, with its sums so far. -/
def workerFrame (s : Settings) (n : Nat) (l : Ledger) : Frame Obj :=
  if s.timing then [(workerTimesVar, l.timesValue n), (workerItersVar, l.itersValue n)] else []

/-- The variables that the workers of a color share, with the sums of all so far. -/
def colorFrames (p : Platform Obj) (s : Settings) (n : Nat) (x : Obj) (region rank : Int)
    (color : Nat) (l : Ledger) : Frames Obj :=
  [colorFrame p x color, walkFrame p s n x region rank l, globals]

section Frames

variable {p : Platform Obj} {s : Settings} {n color : Nat} {x : Obj} {region rank : Int}
  {l l' own : Ledger} {fs : Frames Obj}

theorem accumulators_shared (hs : s.execution.isShared) : accumulators s = workerBooks := by
  rw [accumulators, if_pos hs]
  rfl

theorem settle_worker (hs : s.execution.isShared) :
    settle s n l' (workerFrame s n own :: fs) = workerFrame s n l' :: fs := by
  unfold settle workerFrame
  rw [accumulators_shared hs]
  by_cases ht : s.timing
  · rw [if_pos ht, if_pos ht, if_pos ht]
    rfl
  · rw [if_neg ht, if_neg ht, if_neg ht]

theorem kept_worker (ht : s.timing) : Kept workerBooks n own (workerFrame s n own :: fs) := by
  constructor
  · rw [workerFrame, if_pos ht]
    rfl
  · rw [workerFrame, if_pos ht]
    rfl

/-- A worker is ready for any tile of the color. -/
theorem ready_worker (hs : s.execution.isShared) : Ready s n x region color own
    (workerFrame s n own :: colorFrames p s n x region rank color l) where
  exec := by
    unfold workerFrame colorFrames
    split <;> rfl
  region := by
    unfold workerFrame colorFrames walkFrame statistics
    split <;> rfl
  color := by
    unfold workerFrame colorFrames
    split <;> rfl
  kept ht := by
    rw [accumulators_shared hs]
    exact kept_worker ht

theorem objects_worker : Frames.objects
    (workerFrame s n own :: colorFrames p s n x region rank color l) = [x, x] := by
  unfold workerFrame colorFrames walkFrame statistics
  split <;> rfl

theorem book_walk (ht : s.timing) :
    book mainBooks n l' [walkFrame p s n x region rank l, globals]
      = [walkFrame p s n x region rank l', globals] := by
  unfold walkFrame statistics
  rw [if_pos ht, if_pos ht]
  rfl

theorem walkFrame_congr (h : ∀ k < n, l k = l' k) :
    walkFrame p s n x region rank l = walkFrame p s n x region rank l' := by
  by_cases ht : s.timing
  · have hbook : book mainBooks n l [walkFrame p s n x region rank l, globals]
        = book mainBooks n l' [walkFrame p s n x region rank l, globals] := book_congr h
    rw [book_walk ht, book_walk ht] at hbook
    exact (List.cons.inj hbook).1
  · unfold walkFrame statistics
    rw [if_neg ht, if_neg ht]

end Frames

/-! ## The beginning and the end of a worker -/

section Merge

variable {p : Platform Obj} {s : Settings} {n color : Nat} {x : Obj} {region rank now : Int}
  {l own : Ledger} {fs : Frames Obj} {trace : List (Event Obj)}

/-- The arrays of a worker start empty. -/
theorem exec_freshIters : exec p (.declare "int" (sized workerItersVar n) (.list [.int 0]))
    ⟨[] :: fs, now, trace⟩
      = some (.next, ⟨[(workerItersVar, Ledger.blank.itersValue n)] :: fs, now, trace⟩) := by
  rw [← padded_zero]
  exact exec_declare_array rfl

theorem exec_freshTimes (ht : s.timing) :
    exec p (.declareBare "std::vector<double>" (sized workerTimesVar n))
      ⟨[(workerItersVar, Ledger.blank.itersValue n)] :: fs, now, trace⟩
      = some (.next, ⟨workerFrame s n .blank :: fs, now, trace⟩) := by
  rw [workerFrame, if_pos ht, ← replicate_blank]
  exact exec_declareBare_array

/-- The statements that merge the sums for one loop. -/
def mergeStmts : List Stmt :=
  [.addAssign (element itersVar (.ident "k")) (element workerItersVar (.ident "k")),
    .expr (.method (element timesVar (.ident "k")) "insert"
      [.method (element timesVar (.ident "k")) "end" [],
        .method (element workerTimesVar (.ident "k")) "begin" [],
        .method (element workerTimesVar (.ident "k")) "end" []])]

/-- One loop: the sums of the worker go to those of all. -/
theorem does_merge {σ : State Obj} {k : Nat} (hk : σ.frames.value? "k" = some (.int k))
    (hlt : k < n) (hmain : Kept mainBooks n l σ.frames) (hown : Kept workerBooks n own σ.frames) :
    Does p mergeStmts σ
      { σ with frames := book mainBooks n (l.charge k (own k).1 (own k).2) σ.frames } := by
  have hiters : eval p σ (element workerItersVar (.ident "k")) = some (.int (own k).1) := by
    have hvalue : σ.frames.value? workerItersVar = some (own.itersValue n) := hown.iters
    simp [element, eval, hk, hvalue, Ledger.itersValue, Value.element?, hlt]
  have hadd := exec_addAssign_element (show eval p σ (.ident "k") = some (.int k) from hk)
    hmain.iters (getElem?_map_range _ hlt) hiters
  rw [← itersValue_charge l k _ (own k).2] at hadd
  refine .cons hadd ?_
  set τ : State Obj :=
    { σ with frames := σ.frames.put itersVar ((l.charge k (own k).1 (own k).2).itersValue n) }
    with hτ
  -- the times are added after the iterations, so they are read past that write
  have hkeep : ∀ name, name ≠ itersVar → τ.frames.value? name = σ.frames.value? name :=
    fun name hname => Frames.value?_put_of_ne hname
  have hinsert := exec_insert (p := p) (σ := τ) (i := .ident "k")
    ((hkeep "k" (by decide)).trans hk)
    ((hkeep timesVar (by decide)).trans hmain.times) (getElem?_map_range _ hlt)
    ((hkeep workerTimesVar (by decide)).trans hown.times) (getElem?_map_range _ hlt)
  rw [← timesValue_charge l k (own k).1] at hinsert
  rw [book, Frames.put_comm (by decide)]
  exact .single hinsert

theorem lookup_workerFrame {name : String} (ht : name ≠ workerTimesVar)
    (hi : name ≠ workerItersVar) : (workerFrame s n own : Frame Obj).lookup name = none := by
  unfold workerFrame
  split
  · simp [lookup_cons_ite, ht, hi]
  · rfl

/-- The variables of all, seen by a worker in a critical block. -/
def mergeFrames (p : Platform Obj) (s : Settings) (n : Nat) (x : Obj) (region rank : Int)
    (color : Nat) (own l : Ledger) : Frames Obj :=
  [] :: workerFrame s n own :: colorFrames p s n x region rank color l

theorem kept_mergeFrames (ht : s.timing) :
    Kept mainBooks n l (mergeFrames p s n x region rank color own l) := by
  refine Kept.cons (Kept.cons (Kept.cons (kept_walk ht) ?_ ?_) ?_ ?_) rfl rfl
  · exact lookup_colorFrame (by decide) (by decide)
  · exact lookup_colorFrame (by decide) (by decide)
  · exact lookup_workerFrame (by decide) (by decide)
  · exact lookup_workerFrame (by decide) (by decide)

theorem book_mergeFrames {l' : Ledger} (ht : s.timing) :
    book mainBooks n l' (mergeFrames p s n x region rank color own l)
      = mergeFrames p s n x region rank color own l' := by
  unfold mergeFrames colorFrames
  rw [book_cons rfl rfl, book_cons (lookup_workerFrame (by decide) (by decide))
    (lookup_workerFrame (by decide) (by decide)), book_cons (lookup_colorFrame (by decide)
    (by decide)) (lookup_colorFrame (by decide) (by decide)), book_walk ht]

/-- Merging, while the first loops are done. -/
def mergingState (p : Platform Obj) (s : Settings) (n : Nat) (x : Obj) (region rank : Int)
    (color : Nat) (own l : Ledger) (now : Int) (trace : List (Event Obj)) (m : Nat) : State Obj :=
  ⟨mergeFrames p s n x region rank color own (l.more m (fun k => (own k).1) fun k => (own k).2),
    now, trace⟩

theorem iteration_merge {m : Nat} (ht : s.timing) (hm : m < n) :
    iteration "k" (execAll p mergeStmts) m
        (mergingState p s n x region rank color own l now trace m)
      = some (.next, mergingState p s n x region rank color own l now trace (m + 1)) := by
  set done := l.more m (fun k => (own k).1) fun k => (own k).2 with hdone
  let σ : State Obj :=
    ⟨[("k", .int m)] :: mergeFrames p s n x region rank color own done, now, trace⟩
  have hmain : Kept mainBooks n done σ.frames := (kept_mergeFrames ht).cons rfl rfl
  have hown : Kept workerBooks n own σ.frames := ((kept_worker ht).cons rfl rfl).cons rfl rfl
  have hdoes : Does p mergeStmts σ _ := does_merge rfl hm hmain hown
  rw [show σ.frames = [("k", .int m)] :: mergeFrames p s n x region rank color own done from rfl,
    book_cons rfl rfl, book_mergeFrames ht, hdone,
    Ledger.charge_more l m (fun k => (own k).1) fun k => (own k).2] at hdoes
  exact block_eq_some hdoes

/-- **Merging adds the sums of a worker to those of all.** -/
theorem block_merge (ht : s.timing) : block [] (execAll p [mergeLoop n])
    ⟨workerFrame s n own :: colorFrames p s n x region rank color l, now, trace⟩
      = some (.next, ⟨workerFrame s n own ::
        colorFrames p s n x region rank color (l.join own), now, trace⟩) := by
  -- loop by loop, the sums are joined for the loops of the chain only; no other is stored
  have hwalk : walkFrame p s n x region rank (l.join own)
      = walkFrame p s n x region rank (l.more n (fun k => (own k).1) fun k => (own k).2) := by
    refine walkFrame_congr fun k hk => ?_
    simp [Ledger.join, Ledger.more, hk]
  have hjoin : colorFrames p s n x region rank color (l.join own)
      = colorFrames p s n x region rank color (l.more n (fun k => (own k).1) fun k => (own k).2) := by
    rw [colorFrames, hwalk, colorFrames]
  have hzero : mergingState p s n x region rank color own l now trace 0
      = ⟨[] :: workerFrame s n own :: colorFrames p s n x region rank color l, now, trace⟩ := by
    rw [mergingState, Ledger.more_zero]
    rfl
  have hbound : eval p (mergingState p s n x region rank color own l now trace 0) (.int n)
      = some (.int n) := rfl
  have hloop := forEach_range (iteration "k" (execAll p mergeStmts)) n
    (mergingState p s n x region rank color own l now trace) (fun m hm => iteration_merge ht hm)
  rw [hjoin]
  refine block_eq_some (g := []) (Does.single ?_)
  rw [← hzero]
  refine (exec_forRange hbound).trans ?_
  rw [Int.toNat_natCast]
  exact hloop

end Merge

end SparseTiling.Executor
