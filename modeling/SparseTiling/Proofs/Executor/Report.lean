import Mathlib.Tactic
import SparseTiling.Proofs.Executor.Schedule

/-!
# Around the walk

What an executor does before its loop over the colors, and after it: with timing it
starts with empty sums, and in the end writes a line for each loop.

* `entry`: the state in which the function around an executor starts.
* `does_opening`: up to the loop over the colors.
* `does_report`: the statistics.
-/

namespace SparseTiling.Executor

open Code

variable {Obj : Type}

/-! ## The start -/

/-- The parameters of the function around an executor. -/
def entryFrame (x : Obj) (region rank : Int) : Frame Obj :=
  [(execParam, .obj x), (regionParam, .int region), (rankParam, .int rank)]

/-- What the standard library provides. -/
def globals : Frame Obj := [("std::endl", .str "\n")]

/-- The state in which the function around an executor starts. -/
def entry (x : Obj) (region rank now : Int) : State Obj where
  frames := [entryFrame x region rank, globals]
  now := now
  trace := []

/-- The arrays of all, as opposed to those of a worker. -/
def mainBooks : Books := (timesVar, itersVar)

/-- The variables that timing adds, with the sums so far. -/
def statistics (s : Settings) (n : Nat) (l : Ledger) : Frame Obj :=
  if s.timing then
    [("st", .array [.int 0]), (timesVar, l.timesValue n), (itersVar, l.itersValue n)]
  else []

/-- The variables of an executor during the loop over the colors, with the sums so far. -/
def walkFrame (p : Platform Obj) (s : Settings) (n : Nat) (x : Obj) (region rank : Int)
    (l : Ledger) : Frame Obj :=
  (colorCount, .int (p.numColors x)) :: (execVar, .obj x) ::
    (statistics s n l ++ entryFrame x region rank)

/-- What precedes the loop over the colors. -/
def opening (s : Settings) (n : Nat) : List Stmt :=
  (if s.timing then timingInit n ++ [.blank] else []) ++
    [.declare "executor_t*" execVar (.cast "executor_t*" (.ident execParam)),
      .declare "int" colorCount (Library.execNumColors execVar)]

section Opening

variable {p : Platform Obj} {s : Settings} {n : Nat} {x : Obj} {region rank now : Int}

theorem padded_zero : padded n [.int 0] = (Ledger.blank.itersValue n : Value Obj) := by
  unfold padded Ledger.itersValue Ledger.blank
  refine congrArg Value.array (List.map_congr_left fun i _ => ?_)
  cases i <;> rfl

theorem replicate_blank : .array (List.replicate n (.array []))
    = (Ledger.blank.timesValue n : Value Obj) := by
  unfold Ledger.timesValue Ledger.blank
  simp

theorem exec_makeDir (σ : State Obj) :
    exec p (.ifThen
      (.equals (.callName "stat" [.str timingDir, .addressOf (.ident "st")]) (.int (-1)))
      [.expr (.callName "mkdir" [.str timingDir, .int 448])])
      { σ with frames := σ.frames.declare "st" (.array [.int 0]) }
      = some (.next, { σ with frames := σ.frames.declare "st" (.array [.int 0]) }) := by
  have hst : (σ.frames.declare "st" (.array [.int 0])).value? "st" = some (.array [.int 0]) := by
    cases σ.frames <;> rfl
  set τ : State Obj := { σ with frames := σ.frames.declare "st" (.array [.int 0]) } with hτ
  have hargs : evalAll p τ [.str timingDir, .addressOf (.ident "st")]
      = some [.str timingDir, .array [.int 0]] := by
    simp [evalAll, eval, hτ, hst]
  have hstat : eval p τ (.callName "stat" [.str timingDir, .addressOf (.ident "st")])
      = some (.int (p.status timingDir)) := eval_callName hargs
  by_cases h : p.status timingDir = -1
  · have hmkdir : eval p { τ with frames := [] :: τ.frames }
        (.callName "mkdir" [.str timingDir, .int 448]) = some (.int (p.status timingDir)) :=
      eval_callName (show evalAll p _ [.str timingDir, .int 448]
        = some [.str timingDir, .int 448] from rfl)
    have hblock : block [] (execAll p [.expr (.callName "mkdir" [.str timingDir, .int 448])]) τ
        = some (.next, τ) := block_eq_some (Does.single (exec_callName hmkdir))
    simp [exec, Expr.equals, eval, hstat, h, Value.equals?, Value.holds?, hblock]
  · simp [exec, Expr.equals, eval, hstat, h, Value.equals?, Value.holds?]

theorem does_timingInit : Does p (timingInit n) (entry x region rank now)
    ⟨[("st", .array [.int 0]) :: (timesVar, Ledger.blank.timesValue n) ::
        (itersVar, Ledger.blank.itersValue n) :: entryFrame x region rank, globals], now, []⟩ := by
  have hzero : ∀ σ : State Obj, eval p σ (.list [.int 0]) = some (.array [.int 0]) :=
    fun σ => rfl
  rw [← padded_zero, ← replicate_blank]
  refine .cons rfl (.cons (exec_declare_array (hzero _)) (.cons exec_declareBare_array
    (.cons (exec_declare rfl (hzero _)) (.single (exec_makeDir _)))))

/-- **Up to the loop over the colors.** -/
theorem does_opening : Does p (opening s n) (entry x region rank now)
    ⟨[walkFrame p s n x region rank .blank, globals], now, []⟩ := by
  have hnames : ∀ f : Frame Obj, f.lookup execParam = some (.obj x) →
      Does p [.declare "executor_t*" execVar (.cast "executor_t*" (.ident execParam)),
          .declare "int" colorCount (Library.execNumColors execVar)] ⟨[f, globals], now, []⟩
        ⟨[(colorCount, .int (p.numColors x)) :: (execVar, .obj x) :: f, globals], now, []⟩ := by
    intro f hf
    refine .cons (exec_declare rfl ?_) (.single (exec_declare rfl ?_))
    · exact Frames.value?_cons_of_some hf
    · rfl
  unfold opening walkFrame statistics
  by_cases ht : s.timing
  · rw [if_pos ht, if_pos ht]
    exact (does_timingInit.append (.single rfl)).append (hnames _ rfl)
  · rw [if_neg ht, if_neg ht]
    exact hnames _ rfl

end Opening

/-! ## The statistics -/

/-- The line of a loop. -/
def lineOf (l : Ledger) (i : Nat) : List (Value Obj) :=
  [.str "Loop ", .int i, .str ": totIters=", .int (l i).1, .str ", time=", .int (l i).2.sum,
    .str "\n"]

section Report

variable {p : Platform Obj} {n i : Nat} {l : Ledger} {fs : Frames Obj} {now : Int}
  {trace : List (Event Obj)}

/-- The times of a loop, among further variables. -/
theorem eval_times {σ : State Obj} (hi : σ.frames.value? "i" = some (.int i))
    (ht : σ.frames.value? timesVar = some (l.timesValue n)) (hlt : i < n) :
    eval p σ (element timesVar (.ident "i")) = some (.array ((l i).2.map .int)) := by
  simp [element, eval, hi, ht, Ledger.timesValue, Value.element?, hlt]

/-- The state while the first times of a loop are added up. -/
def summing (l : Ledger) (i : Nat) (fs : Frames Obj) (now : Int) (trace : List (Event Obj))
    (m : Nat) : State Obj :=
  ⟨[("tot", .int ((l i).2.take m).sum), ("i", .int i)] :: fs, now, trace⟩

theorem Kept.eval_times_summing {m : Nat} (hk : Kept mainBooks n l fs) (hlt : i < n) :
    eval p (summing l i fs now trace m) (element timesVar (.ident "i"))
      = some (.array ((l i).2.map .int)) := by
  refine eval_times rfl ?_ hlt
  rw [summing, Frames.value?_cons_of_none rfl]
  exact hk.times

theorem iteration_sum {m : Nat} (hk : Kept mainBooks n l fs) (hlt : i < n)
    (hm : m < (l i).2.length) :
    iteration "j" (execAll p
        [.addAssign (.ident "tot") (.index (element timesVar (.ident "i")) (.ident "j"))]) m
        (summing l i fs now trace m)
      = some (.next, summing l i fs now trace (m + 1)) := by
  let σ : State Obj :=
    ⟨[("j", .int m)] :: (summing l i fs now trace m).frames, now, trace⟩
  have hrow : eval p σ (element timesVar (.ident "i")) = some (.array ((l i).2.map .int)) := by
    refine eval_times rfl ?_ hlt
    show Frames.value? ([("j", _)] :: [("tot", _), ("i", _)] :: fs) timesVar = _
    rw [Frames.value?_cons_of_none rfl, Frames.value?_cons_of_none rfl]
    exact hk.times
  have hcell : eval p σ (.index (element timesVar (.ident "i")) (.ident "j"))
      = some (.int (l i).2[m]) := by
    have hj : σ.frames.value? "j" = some (.int m) := rfl
    simp [eval, hrow, hj, Value.element?, hm]
  have hadd : exec p (.addAssign (.ident "tot")
      (.index (element timesVar (.ident "i")) (.ident "j"))) σ = _ := exec_addAssign rfl hcell
  refine block_eq_some (g := [("j", .int m)]) (Does.single ?_)
  rw [List.sum_take_succ _ _ hm]
  exact hadd

/-- The innermost loop of the report adds up the times of a loop. -/
theorem exec_sumTimes (hk : Kept mainBooks n l fs) (hlt : i < n) :
    exec p (.forRange "j" (.cast "int" (.method (element timesVar (.ident "i")) "size" []))
        [.addAssign (.ident "tot") (.index (element timesVar (.ident "i")) (.ident "j"))])
        ⟨[("tot", .int 0), ("i", .int i)] :: fs, now, trace⟩
      = some (.next, ⟨[("tot", .int (l i).2.sum), ("i", .int i)] :: fs, now, trace⟩) := by
  have hbound : eval p (summing l i fs now trace 0)
      (.cast "int" (.method (element timesVar (.ident "i")) "size" []))
        = some (.int (l i).2.length) := by
    simp [Expr.method, eval, hk.eval_times_summing hlt, Value.method?]
  have hloop := forEach_range (iteration "j" (execAll p
    [.addAssign (.ident "tot") (.index (element timesVar (.ident "i")) (.ident "j"))]))
    (l i).2.length (summing l i fs now trace) (fun m hm => iteration_sum hk hlt hm)
  have hend : summing l i fs now trace (l i).2.length
      = ⟨[("tot", .int (l i).2.sum), ("i", .int i)] :: fs, now, trace⟩ := by
    rw [summing, List.take_length]
  rw [← hend, ← hloop]
  exact exec_forRange hbound

theorem Kept.declare {books : Books} {name : String} {v : Value Obj} (hk : Kept books n l fs)
    (ht : books.1 ≠ name) (hi : books.2 ≠ name) : Kept books n l (fs.declare name v) := by
  constructor
  · rw [Frames.value?_declare_of_ne ht, hk.times]
  · rw [Frames.value?_declare_of_ne hi, hk.iters]

/-- The statements that write the line of a loop. -/
def lineStmts : List Stmt :=
  [.declare "double" "tot" (.float .zero),
    .forRange "j" (.cast "int" (.method (element timesVar (.ident "i")) "size" []))
      [.addAssign (.ident "tot") (.index (element timesVar (.ident "i")) (.ident "j"))],
    .expr reportLine]

/-- One more line. -/
theorem iteration_line (lines : List (Value Obj)) (now : Int) (trace : List (Event Obj))
    (hk : Kept mainBooks n l fs)
    (hendl : fs.value? "std::endl" = some (.str "\n")) (hlt : i < n) :
    iteration "i" (execAll p lineStmts) i ⟨fs.declare "outfile" (.array lines), now, trace⟩
      = some (.next, ⟨fs.declare "outfile" (.array (lines ++ lineOf l i)), now, trace⟩) := by
  set gs := fs.declare "outfile" (.array lines) with hgs
  have hkg : Kept mainBooks n l gs := hk.declare (by decide) (by decide)
  let σ : State Obj := ⟨[("tot", .int (l i).2.sum), ("i", .int i)] :: gs, now, trace⟩
  have hiters : eval p σ (element itersVar (.ident "i")) = some (.int (l i).1) := by
    have hvalue : σ.frames.value? itersVar = some (l.itersValue n) :=
      (Frames.value?_cons_of_none rfl).trans hkg.iters
    have hi : σ.frames.value? "i" = some (.int i) := rfl
    simp [element, eval, hi, hvalue, Ledger.itersValue, Value.element?, hlt]
  have hend : σ.frames.value? "std::endl" = some (.str "\n") := by
    refine (Frames.value?_cons_of_none rfl).trans ?_
    rw [hgs, Frames.value?_declare_of_ne (by decide), hendl]
  have hitems : evalAll p σ [.str "Loop ", .ident "i", .str ": totIters=",
      element itersVar (.ident "i"), .str ", time=", .ident "tot", .ident "std::endl"]
        = some (lineOf l i) := by
    have hi : σ.frames.value? "i" = some (.int i) := rfl
    have htot : σ.frames.value? "tot" = some (.int (l i).2.sum) := rfl
    simp [evalAll, hiters, eval, hi, htot, hend, lineOf]
  have hout : σ.frames.value? "outfile" = some (.array lines) := by
    refine (Frames.value?_cons_of_none rfl).trans ?_
    rw [hgs, Frames.value?_declare_self]
  have hline := exec_output (by simp) hout hitems
  rw [show σ.frames.put "outfile" (.array (lines ++ lineOf l i))
      = [("tot", .int (l i).2.sum), ("i", .int i)] :: gs.put "outfile" (.array (lines ++ lineOf l i))
      from rfl, hgs, Frames.put_declare_self] at hline
  refine block_eq_some (g := [("tot", .int (l i).2.sum), ("i", .int i)])
    (Does.cons (exec_declare rfl rfl) (.cons (exec_sumTimes hkg hlt) (.single hline)))

/-- The items of the file's name. -/
def pathOf (chain : String) (region rank : Int) : List (Value Obj) :=
  [.str timingDir, .str "/", .str chain, .str "_rank", .int rank, .str "_",
    .str (if region = 1 then "exec" else "core"), .str ".txt"]

/-- What a report leaves: the sums as they were, the name of its file, and a line for
each loop. -/
structure Reported (chain : String) (n : Nat) (region rank : Int) (l : Ledger)
    (fs : Frames Obj) : Prop where
  kept : Kept mainBooks n l fs
  path : fs.value? "stream" = some (.array (pathOf chain region rank))
  lines : fs.value? "outfile" = some (.array ((List.range n).flatMap (lineOf l)))

/-- The name of the region, in the variable of that name. -/
def regionName (region : Int) : Value Obj := .str (if region = 1 then "exec" else "core")

theorem exec_regionName {region : Int} (hregion : fs.value? regionParam = some (.int region)) :
    exec p (.ifThen (.equals (.ident regionParam) (.int 1))
        [.assign (.ident "regionName") (.str "exec")])
        ⟨fs.declare "regionName" (.str "core"), now, trace⟩
      = some (.next, ⟨fs.declare "regionName" (regionName region), now, trace⟩) := by
  have hr : (fs.declare "regionName" (.str "core")).value? regionParam = some (.int region) := by
    rw [Frames.value?_declare_of_ne (by decide), hregion]
  by_cases h : region = 1
  · have hbound : (Frames.value? ([] :: fs.declare "regionName" (.str "core"))
        "regionName").isSome := by
      rw [Frames.value?_cons_of_none rfl, Frames.value?_declare_self]
      rfl
    have hassign : exec p (.assign (.ident "regionName") (.str "exec"))
        ⟨[] :: fs.declare "regionName" (.str "core"), now, trace⟩
          = some (.next, ⟨[] :: fs.declare "regionName" (.str "exec"), now, trace⟩) := by
      rw [exec_assign rfl hbound, Frames.put_cons_of_none rfl, Frames.put_declare_self]
    have hblock : block [] (execAll p [.assign (.ident "regionName") (.str "exec")])
        ⟨fs.declare "regionName" (.str "core"), now, trace⟩ = _ :=
      block_eq_some (Does.single hassign)
    simp [exec, Expr.equals, eval, hr, h, Value.equals?, Value.holds?, hblock, regionName]
  · simp [exec, Expr.equals, eval, hr, h, Value.equals?, Value.holds?, regionName]

theorem exec_reportPath {region rank : Int} (chain : String)
    (hrank : fs.value? rankParam = some (.int rank))
    (hname : fs.value? "regionName" = some (regionName region)) :
    exec p (.expr (reportPath chain)) ⟨fs.declare "stream" (.array []), now, trace⟩
      = some (.next, ⟨fs.declare "stream" (.array (pathOf chain region rank)), now, trace⟩) := by
  have hr : (fs.declare "stream" (.array [])).value? rankParam = some (.int rank) := by
    rw [Frames.value?_declare_of_ne (by decide), hrank]
  have hn : (fs.declare "stream" (.array [])).value? "regionName" = some (regionName region) := by
    rw [Frames.value?_declare_of_ne (by decide), hname]
  have hitems : evalAll p ⟨fs.declare "stream" (.array []), now, trace⟩
      [.str timingDir, .str "/", .str chain, .str "_rank", .ident rankParam, .str "_",
        .ident "regionName", .str ".txt"] = some (pathOf chain region rank) := by
    simp [evalAll, eval, hr, hn, pathOf, regionName]
  have hout := exec_output (by simp) Frames.value?_declare_self hitems
  rwa [Frames.put_declare_self] at hout

theorem exec_outfile {path : List (Value Obj)} (hs : fs.value? "stream" = some (.array path)) :
    exec p (.construct "std::ofstream" "outfile" [.method (.ident "stream") "str" []])
        ⟨fs, now, trace⟩
      = some (.next, ⟨fs.declare "outfile" (.array []), now, trace⟩) := by
  simp only [exec, evalAll, Expr.method, eval, hs]
  rfl

/-- The lines of all loops. -/
theorem exec_lines (hk : Kept mainBooks n l fs)
    (hendl : fs.value? "std::endl" = some (.str "\n")) :
    exec p (.forRange "i" (.int n) lineStmts) ⟨fs.declare "outfile" (.array []), now, trace⟩
      = some (.next, ⟨fs.declare "outfile" (.array ((List.range n).flatMap (lineOf l))), now,
        trace⟩) := by
  let after (m : Nat) : State Obj :=
    ⟨fs.declare "outfile" (.array ((List.range m).flatMap (lineOf l))), now, trace⟩
  have hbound : eval p (after 0) (.int n) = some (.int n) := rfl
  refine (exec_forRange hbound).trans ?_
  rw [Int.toNat_natCast]
  refine forEach_range _ n after fun m hm => ?_
  have hline := iteration_line (p := p) ((List.range m).flatMap (lineOf l)) now trace hk hendl hm
  simpa [after, List.range_succ] using hline

/-- **The report.** -/
theorem does_report {region rank : Int} (chain : String) (now : Int) (trace : List (Event Obj))
    (hk : Kept mainBooks n l fs) (hregion : fs.value? regionParam = some (.int region))
    (hrank : fs.value? rankParam = some (.int rank))
    (hendl : fs.value? "std::endl" = some (.str "\n")) :
    ∃ fs', Does p (timingReport chain n) ⟨fs, now, trace⟩ ⟨fs', now, trace⟩ ∧
      Reported chain n region rank l fs' := by
  set named := fs.declare "regionName" (regionName region) with hnamed
  set streamed := named.declare "stream" (.array (pathOf chain region rank)) with hstreamed
  have hk' : Kept mainBooks n l streamed :=
    (hk.declare (by decide) (by decide)).declare (by decide) (by decide)
  have hrank' : named.value? rankParam = some (.int rank) := by
    rw [hnamed, Frames.value?_declare_of_ne (by decide), hrank]
  have hendl' : streamed.value? "std::endl" = some (.str "\n") := by
    rw [hstreamed, Frames.value?_declare_of_ne (by decide), hnamed,
      Frames.value?_declare_of_ne (by decide), hendl]
  have hclose : exec p (.expr (.method (.ident "outfile") "close" []))
      ⟨streamed.declare "outfile" (.array ((List.range n).flatMap (lineOf l))), now, trace⟩
        = some (.next,
          ⟨streamed.declare "outfile" (.array ((List.range n).flatMap (lineOf l))), now, trace⟩) := by
    simp [exec, Expr.method, perform, Frames.value?_declare_self]
  refine ⟨streamed.declare "outfile" (.array ((List.range n).flatMap (lineOf l))), ?_,
    hk'.declare (by decide) (by decide), ?_, Frames.value?_declare_self⟩
  · exact .cons (exec_declare rfl rfl) (.cons (exec_regionName hregion)
      (.cons (exec_declareBare rfl) (.cons (exec_reportPath chain hrank' Frames.value?_declare_self)
        (.cons (exec_outfile Frames.value?_declare_self) (.cons (exec_lines hk' hendl')
          (.single hclose))))))
  · rw [Frames.value?_declare_of_ne (by decide), hstreamed, Frames.value?_declare_self]

end Report

/-! ## The whole -/

section Whole

variable {p : Platform Obj} {s : Settings} {n : Nat} {x : Obj} {region rank : Int} {l : Ledger}

/-- What follows the loop over the colors. -/
def closing (chain : String) (s : Settings) (n : Nat) : List Stmt :=
  if s.timing then .blank :: timingReport chain n else []

theorem program_eq (chain : String) (s : Settings) (bs : List Binding)
    (kernel : Binding → String) : program chain s bs kernel
      = opening s bs.length ++ colorLoop s bs kernel :: closing chain s bs.length := by
  simp [program, opening, closing]

theorem kept_walk (ht : s.timing) :
    Kept mainBooks n l [walkFrame p s n x region rank l, globals] := by
  constructor
  · rw [walkFrame, statistics, if_pos ht]
    rfl
  · rw [walkFrame, statistics, if_pos ht]
    rfl

/-- The objects in scope during the loop over the colors: the executor, under two names. -/
theorem objects_walk : Frames.objects [walkFrame p s n x region rank l, globals] = [x, x] := by
  unfold walkFrame statistics
  split <;> rfl

theorem value?_walk_of_entry {name : String} {v : Value Obj}
    (hname : name = regionParam ∨ name = rankParam)
    (hv : (entryFrame x region rank).lookup name = some v) :
    Frames.value? [walkFrame p s n x region rank l, globals] name = some v := by
  unfold walkFrame statistics
  rcases hname with rfl | rfl <;> split <;> exact hv

/-- After the loop over the colors: with timing the report, else nothing. -/
theorem does_closing (x : Obj) (region rank : Int) (chain : String) (n : Nat) (l : Ledger)
    (now : Int) (trace : List (Event Obj)) :
    ∃ fs', Does p (closing chain s n) ⟨[walkFrame p s n x region rank l, globals], now, trace⟩
        ⟨fs', now, trace⟩ ∧
      (s.timing → Reported chain n region rank l fs') := by
  by_cases ht : s.timing
  · have hkept : Kept mainBooks n l [walkFrame p s n x region rank l, globals] := kept_walk ht
    obtain ⟨fs', hdoes, hreported⟩ := does_report (p := p) chain now trace hkept
      (value?_walk_of_entry (.inl rfl) rfl) (value?_walk_of_entry (.inr rfl) rfl)
      (by rw [walkFrame, statistics, if_pos ht]; rfl)
    refine ⟨fs', ?_, fun _ => hreported⟩
    rw [closing, if_pos ht]
    exact .cons rfl hdoes
  · refine ⟨[walkFrame p s n x region rank l, globals], ?_, fun h => absurd h ht⟩
    rw [closing, if_neg ht]
    exact .nil

end Whole

end SparseTiling.Executor
