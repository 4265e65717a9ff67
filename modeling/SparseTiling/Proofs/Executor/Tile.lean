import Mathlib.Tactic
import SparseTiling.Proofs.Executor.Ledger

/-!
# Running the kernels of a tile

What one iteration of the innermost loop of an executor does, whichever loop runs it: a
tile that is not there is passed over, and otherwise the kernel of each loop runs once,
in their order, on the tile's part of its maps and iterations.

* `Ran`: an event is the run of a kernel on a tile.
* `does_kernel`: the code around one kernel.
* `iteration_missing`, `iteration_tile`: an iteration, for a missing tile and for a tile.
-/

namespace SparseTiling.Executor

open Code

variable {Obj : Type}

/-! ## Local names -/

/-- The fixed names of variables in scope in a tile. -/
def fixedNames : List String :=
  [execVar, regionParam, tileVar, loopSizeVar, startVar, endVar, timesVar, itersVar,
    workerTimesVar, workerItersVar, "i", "j"]

theorem take_localMapName (position : Nat) (map : String) :
    (localMapName position map).toList.take 4 = ['l', 'o', 'c', '_'] := by
  simp [localMapName]

theorem take_iterationsName (position : Nat) :
    (iterationsName position).toList.take 4 = ['i', 't', 'e', 'r'] := by
  simp [iterationsName]

theorem localMapName_injective {position : Nat} {map map' : String}
    (h : localMapName position map = localMapName position map') : map = map' := by
  have h := congrArg String.toList h
  simp only [localMapName, String.toList_append, List.append_cancel_right_eq,
    List.append_cancel_left_eq] at h
  exact String.toList_injective h

namespace Binding

/-- The local names are those that the position gives. -/
structure WellNamed (b : Binding) : Prop where
  iterations : b.iterations = iterationsName b.position
  locals : ∀ d ∈ b.localMaps, d.2 = localMapName b.position d.1

/-- All local names. -/
def names (b : Binding) : List String := b.iterations :: b.localMaps.map (·.2)

variable {b : Binding} {name : String}

/-- Local names begin in a way that no fixed name does. -/
theorem WellNamed.notMem_names (h : b.WellNamed) (hf : name ∈ fixedNames) : name ∉ b.names := by
  intro hn
  have hfixed : ∀ n ∈ fixedNames,
      n.toList.take 4 ≠ ['l', 'o', 'c', '_'] ∧ n.toList.take 4 ≠ ['i', 't', 'e', 'r'] := by
    decide
  obtain ⟨hloc, hiter⟩ := hfixed name hf
  rcases List.mem_cons.1 hn with rfl | hm
  · rw [h.iterations] at hiter
    exact hiter (take_iterationsName _)
  · obtain ⟨d, hd, rfl⟩ := List.mem_map.1 hm
    rw [h.locals d hd] at hloc
    exact hloc (take_localMapName _ _)

end Binding

/-! ## The variables of a tile -/

section Opened

variable (p : Platform Obj) (tile : Obj) (b : Binding) {f : Frame Obj} {name : String}

/-- The variables of a tile once those of a loop are declared. -/
def opened (f : Frame Obj) : Frame Obj :=
  (b.iterations, .obj (p.iterations tile b.position)) ::
    ((b.localMaps.map fun d => (d.2, .obj (p.localMap tile b.position d.1))).reverse ++ f)

/-- The objects that become visible with a loop. -/
def entered : List Obj :=
  p.iterations tile b.position ::
    (b.localMaps.map fun d => p.localMap tile b.position d.1).reverse

variable {p tile b}

theorem lookup_opened_of_notMem (h : name ∉ b.names) :
    (opened p tile b f).lookup name = f.lookup name := by
  simp only [Binding.names, List.mem_cons, List.mem_map, not_or, not_exists, not_and] at h
  have hlocals : ((b.localMaps.map fun d =>
      (d.2, Value.obj (p.localMap tile b.position d.1))).reverse).lookup name = none := by
    rw [List.lookup_eq_none_iff]
    intro d hd
    obtain ⟨d', hd', rfl⟩ := List.mem_map.1 (List.mem_reverse.1 hd)
    simpa using fun hname : name = d'.2 => h.2 d' hd' hname.symm
  rw [opened, lookup_cons_ite, if_neg h.1, List.lookup_append, hlocals, Option.none_or]

theorem lookup_opened_iterations :
    (opened p tile b f).lookup b.iterations = some (.obj (p.iterations tile b.position)) := by
  rw [opened, lookup_cons_ite, if_pos rfl]

theorem lookup_opened_local (hb : b.WellNamed) {d : String × String} (hd : d ∈ b.localMaps) :
    (opened p tile b f).lookup d.2 = some (.obj (p.localMap tile b.position d.1)) := by
  have hne : d.2 ≠ b.iterations := by
    intro h
    have := take_localMapName b.position d.1
    rw [← hb.locals d hd, h, hb.iterations, take_iterationsName] at this
    simp at this
  have hmem : (d.2, Value.obj (p.localMap tile b.position d.1)) ∈
      (b.localMaps.map fun d => (d.2, Value.obj (p.localMap tile b.position d.1))).reverse :=
    List.mem_reverse.2 (List.mem_map.2 ⟨d, hd, rfl⟩)
  -- whichever variable of the name is found, it stands for the same map
  have hlookup : ((b.localMaps.map fun d =>
      (d.2, Value.obj (p.localMap tile b.position d.1))).reverse).lookup d.2
        = some (.obj (p.localMap tile b.position d.1)) := by
    cases hl : ((b.localMaps.map fun d =>
        (d.2, Value.obj (p.localMap tile b.position d.1))).reverse).lookup d.2 with
    | none =>
      have := List.lookup_eq_none_iff.1 hl _ hmem
      simp at this
    | some v =>
      obtain ⟨before, after, hsplit, -⟩ := List.lookup_eq_some_iff.1 hl
      have hv : (d.2, v) ∈ (b.localMaps.map fun d =>
          (d.2, Value.obj (p.localMap tile b.position d.1))).reverse := by
        rw [hsplit]
        simp
      obtain ⟨d', hd', heq⟩ := List.mem_map.1 (List.mem_reverse.1 hv)
      obtain ⟨hname, rfl⟩ := Prod.mk.inj heq
      rw [hb.locals d hd, hb.locals d' hd'] at hname
      rw [localMapName_injective hname]
  rw [opened, lookup_cons_ite, if_neg hne, List.lookup_append, hlookup, Option.some_or]

theorem objects_opened : (opened p tile b f).objects = entered p tile b ++ f.objects := by
  simp [opened, entered, Frame.objects, Value.object?, List.filterMap_map,
    List.filterMap_reverse]

end Opened

/-- The variables of a tile that its loops share. -/
def scratch (s : Settings) : List String :=
  loopSizeVar :: if s.timing then [startVar, endVar] else []

/-- Variables of the blocks around a tile. -/
def outerNames : List String := ["i", timesVar, itersVar, workerTimesVar, workerItersVar]

/-- The variables of a block are those of a tile. -/
structure InTile (s : Settings) (tile : Obj) (index : Nat) (f : Frame Obj) : Prop where
  tile : f.lookup tileVar = some (.obj tile)
  index : f.lookup "j" = some (.int index)
  own : ∀ name ∈ scratch s, ∃ v, f.lookup name = some v ∧ v.object? = none
  outer : ∀ name ∈ outerNames, f.lookup name = none

theorem mem_scratch {s : Settings} {name : String} (h : name ∈ scratch s) :
    name ∈ [loopSizeVar, startVar, endVar] := by
  unfold scratch at h
  split at h
  · exact h
  · exact List.mem_cons.2 (.inl (List.mem_singleton.1 h))

namespace InTile

variable {s : Settings} {tile : Obj} {index : Nat} {f : Frame Obj} {p : Platform Obj}
  {b : Binding} {name : String} {v : Value Obj}

theorem opened (h : InTile s tile index f) (hb : b.WellNamed) :
    InTile s tile index (opened p tile b f) := by
  have keep : ∀ name ∈ fixedNames, (Executor.opened p tile b f).lookup name = f.lookup name :=
    fun name hname => lookup_opened_of_notMem (hb.notMem_names hname)
  refine ⟨?_, ?_, ?_, ?_⟩
  · rw [keep _ (by decide), h.tile]
  · rw [keep _ (by decide), h.index]
  · intro name hname
    have hfixed : ∀ n ∈ [loopSizeVar, startVar, endVar], n ∈ fixedNames := by decide
    rw [keep name (hfixed name (mem_scratch hname))]
    exact h.own name hname
  · intro name hname
    have hfixed : ∀ n ∈ outerNames, n ∈ fixedNames := by decide
    rw [keep name (hfixed name hname)]
    exact h.outer name hname

theorem put (h : InTile s tile index f) (hname : name ∈ scratch s) (hv : v.object? = none) :
    InTile s tile index (f.put name v) := by
  have hne : ∀ n ∈ [loopSizeVar, startVar, endVar],
      tileVar ≠ n ∧ "j" ≠ n ∧ ∀ m ∈ outerNames, m ≠ n := by decide
  obtain ⟨htile, hindex, houter⟩ := hne name (mem_scratch hname)
  refine ⟨?_, ?_, ?_, ?_⟩
  · rw [Frame.lookup_put_of_ne htile, h.tile]
  · rw [Frame.lookup_put_of_ne hindex, h.index]
  · intro other hother
    by_cases heq : other = name
    · subst heq
      obtain ⟨w, hw, -⟩ := h.own other hother
      exact ⟨v, Frame.lookup_put_self (by simp [hw]), hv⟩
    · rw [Frame.lookup_put_of_ne heq]
      exact h.own other hother
  · intro other hother
    rw [Frame.lookup_put_of_ne (houter other hother)]
    exact h.outer other hother

theorem objects_put (h : InTile s tile index f) (hname : name ∈ scratch s)
    (hv : v.object? = none) : (f.put name v).objects = f.objects := by
  obtain ⟨w, hw, hwo⟩ := h.own name hname
  exact Frame.objects_put hv hw hwo

theorem isSome_lookup (h : InTile s tile index f) (hname : name ∈ scratch s) :
    (f.lookup name).isSome := by
  obtain ⟨w, hw, -⟩ := h.own name hname
  simp [hw]

end InTile

/-! ## A kernel -/

/-- A tile with its place: its color, and its index among the tiles of the color. -/
structure Visit (Obj : Type) where
  color : Nat
  index : Nat
  tile : Obj

/-- An event is the run of the kernel of a loop on a tile: it sees the size of the loop
there, the iterations and the part of each map. -/
structure Ran (p : Platform Obj) (kernel : Binding → String) (time : Obj → Nat → Int)
    (v : Visit Obj) (b : Binding) (e : Event Obj) : Prop where
  text : e.text = kernel b
  time : p.time e = time v.tile b.position
  color : e.frames.value? "i" = some (.int v.color)
  index : e.frames.value? "j" = some (.int v.index)
  tile : e.frames.value? tileVar = some (.obj v.tile)
  size : e.frames.value? loopSizeVar = some (.int (p.loopSize v.tile b.position))
  iterations : e.frames.value? b.iterations = some (.obj (p.iterations v.tile b.position))
  locals : ∀ d ∈ b.localMaps,
    e.frames.value? d.2 = some (.obj (p.localMap v.tile b.position d.1))

/-- With timing, write the ledger. -/
def settle (s : Settings) (n : Nat) (l : Ledger) (fs : Frames Obj) : Frames Obj :=
  if s.timing then book (accumulators s) n l fs else fs

theorem accumulators_ne (s : Settings) : (accumulators s).1 ≠ (accumulators s).2 := by
  unfold accumulators
  split <;> decide

theorem accumulators_mem (s : Settings) :
    (accumulators s).1 ∈ outerNames ∧ (accumulators s).2 ∈ outerNames := by
  unfold accumulators
  split <;> decide

theorem accumulators_ne_index (s : Settings) :
    (accumulators s).1 ≠ "i" ∧ (accumulators s).2 ≠ "i" := by
  unfold accumulators
  split <;> decide

section Kernel

variable {p : Platform Obj} {s : Settings} {tile : Obj} {index : Nat} {b : Binding}
  {f : Frame Obj} {fs : Frames Obj} {now : Int} {trace : List (Event Obj)}

theorem eval_timeStamp {σ : State Obj} : eval p σ Library.timeStamp = some (.int σ.now) :=
  eval_callName (show evalAll p σ [] = some [] from rfl)

/-- A tile and the position of a loop, as arguments of a call. -/
theorem evalAll_place {position : Nat} (h : f.lookup tileVar = some (.obj tile)) :
    evalAll p ⟨f :: fs, now, trace⟩ [.ident tileVar, .int position]
      = some [.obj tile, .int position] := by
  simp [evalAll, eval, Frames.value?_cons_of_some h]

theorem does_locals (hlocals : ∀ d ∈ b.localMaps, d.2 = localMapName b.position d.1) :
    ∀ (ms : List (String × String)) (f : Frame Obj), (∀ d ∈ ms, d ∈ b.localMaps) →
      f.lookup tileVar = some (.obj tile) →
      Does p (ms.map fun d => .declare "iterations_list&" d.2
          (Library.tileGetLocalMap tileVar b.position d.1)) ⟨f :: fs, now, trace⟩
        ⟨((ms.map fun d => (d.2, .obj (p.localMap tile b.position d.1))).reverse ++ f) :: fs,
          now, trace⟩ := by
  intro ms
  induction ms with
  | nil =>
    intro f _ _
    exact .nil
  | cons d ms ih =>
    intro f hsub htile
    have hname := hlocals d (hsub d List.mem_cons_self)
    have hplain : declarator d.2 = (d.2, none) := by
      rw [hname]
      exact declarator_append_toString _ _
    have heval : eval p ⟨f :: fs, now, trace⟩ (Library.tileGetLocalMap tileVar b.position d.1)
        = some (.obj (p.localMap tile b.position d.1)) := by
      have hargs : evalAll p ⟨f :: fs, now, trace⟩ [.ident tileVar, .int b.position, .str d.1]
          = some [.obj tile, .int b.position, .str d.1] := by
        simp [evalAll, eval, Frames.value?_cons_of_some htile]
      exact eval_callName hargs
    have hne : tileVar ≠ d.2 := by
      intro h
      have := take_localMapName b.position d.1
      rw [← hname, ← h] at this
      exact absurd this (by decide)
    have hrest := ih ((d.2, .obj (p.localMap tile b.position d.1)) :: f)
      (fun d' hd' => hsub d' (List.mem_cons_of_mem _ hd'))
      (by rw [lookup_cons_ite, if_neg hne, htile])
    refine .cons (exec_declare hplain heval) ?_
    simpa [Frames.declare] using hrest

/-- The variables of a tile once the size of a loop is known as well. -/
def measured (p : Platform Obj) (tile : Obj) (b : Binding) (f : Frame Obj) : Frame Obj :=
  (opened p tile b f).put loopSizeVar (.int (p.loopSize tile b.position))

/-- The variables of a tile when a kernel starts. -/
def started (p : Platform Obj) (s : Settings) (tile : Obj) (b : Binding) (now : Int)
    (f : Frame Obj) : Frame Obj :=
  if s.timing then (measured p tile b f).put startVar (.int now) else measured p tile b f

section Started

variable (hf : InTile s tile index f) (hb : b.WellNamed)

include hf hb

theorem InTile.measured : InTile s tile index (measured p tile b f) :=
  (hf.opened hb).put List.mem_cons_self rfl

theorem InTile.started : InTile s tile index (started p s tile b now f) := by
  have hm : InTile s tile index (Executor.measured p tile b f) := hf.measured hb
  unfold Executor.started
  by_cases ht : s.timing
  · rw [if_pos ht]
    exact hm.put (by simp [scratch, ht]) rfl
  · rw [if_neg ht]
    exact hm

theorem objects_started :
    (started p s tile b now f).objects = entered p tile b ++ f.objects := by
  have hopened : InTile s tile index (opened p tile b f) := hf.opened hb
  have hm : InTile s tile index (measured p tile b f) := hf.measured hb
  have hobjects : (measured p tile b f).objects = (opened p tile b f).objects :=
    hopened.objects_put List.mem_cons_self rfl
  rw [← objects_opened, ← hobjects]
  unfold started
  by_cases ht : s.timing
  · rw [if_pos ht]
    exact hm.objects_put (by simp [scratch, ht]) rfl
  · rw [if_neg ht]

theorem lookup_started_size : (started p s tile b now f).lookup loopSizeVar
    = some (.int (p.loopSize tile b.position)) := by
  have hopened : InTile s tile index (opened p tile b f) := hf.opened hb
  have hself : (measured p tile b f).lookup loopSizeVar
      = some (.int (p.loopSize tile b.position)) :=
    Frame.lookup_put_self (hopened.isSome_lookup List.mem_cons_self)
  unfold started
  by_cases ht : s.timing
  · rw [if_pos ht, Frame.lookup_put_of_ne (by decide), hself]
  · rw [if_neg ht, hself]

theorem lookup_started_start (ht : s.timing) :
    (started p s tile b now f).lookup startVar = some (.int now) := by
  have hm : InTile s tile index (measured p tile b f) := hf.measured hb
  rw [started, if_pos ht]
  exact Frame.lookup_put_self (hm.isSome_lookup (by simp [scratch, ht]))

omit hf in
/-- Local names keep what their declarations gave them. -/
theorem lookup_started_local {name : String} (hname : name ∈ b.names) :
    (started p s tile b now f).lookup name = (opened p tile b f).lookup name := by
  have hsize : name ≠ loopSizeVar := by
    rintro rfl
    exact hb.notMem_names (by decide) hname
  have hstart : name ≠ startVar := by
    rintro rfl
    exact hb.notMem_names (by decide) hname
  unfold started measured
  by_cases ht : s.timing
  · rw [if_pos ht, Frame.lookup_put_of_ne hstart, Frame.lookup_put_of_ne hsize]
  · rw [if_neg ht, Frame.lookup_put_of_ne hsize]

theorem ran_started {kernel : Binding → String} {time : Obj → Nat → Int} {color : Nat}
    (hcolor : fs.value? "i" = some (.int color))
    (htime : p.duration (kernel b) (entered p tile b ++ f.objects ++ fs.objects)
      = time tile b.position) :
    Ran p kernel time ⟨color, index, tile⟩ b ⟨kernel b, started p s tile b now f :: fs⟩ := by
  have hg : InTile s tile index (started p s tile b now f) := hf.started hb
  refine ⟨rfl, ?_, ?_, Frames.value?_cons_of_some hg.index, Frames.value?_cons_of_some hg.tile,
    Frames.value?_cons_of_some (lookup_started_size hf hb), ?_, ?_⟩
  · rw [← htime, ← objects_started hf hb, ← Frames.objects_cons]
    rfl
  · rw [← hcolor]
    exact Frames.value?_cons_of_none (hg.outer "i" (by decide))
  · apply Frames.value?_cons_of_some
    rw [lookup_started_local hb List.mem_cons_self, lookup_opened_iterations]
  · intro d hd
    have hname : d.2 ∈ b.names := List.mem_cons_of_mem _ (List.mem_map_of_mem hd)
    apply Frames.value?_cons_of_some
    rw [lookup_started_local hb hname, lookup_opened_local hb hd]

end Started

theorem does_prologue (hf : InTile s tile index f) (hb : b.WellNamed) :
    Does p (prologue s b) ⟨f :: fs, now, trace⟩ ⟨started p s tile b now f :: fs, now, trace⟩ := by
  have hopened : InTile s tile index (opened p tile b f) := hf.opened hb
  set g : Frame Obj :=
    (b.localMaps.map fun d => (d.2, .obj (p.localMap tile b.position d.1))).reverse ++ f with hg
  have hlocals : Does p _ ⟨f :: fs, now, trace⟩ ⟨g :: fs, now, trace⟩ :=
    does_locals hb.locals b.localMaps f (fun d hd => hd) hf.tile
  have htile : g.lookup tileVar = some (.obj tile) := by
    have := hopened.tile
    have hne : tileVar ≠ b.iterations := fun h =>
      hb.notMem_names (show tileVar ∈ fixedNames by decide) (h ▸ List.mem_cons_self)
    rwa [opened, lookup_cons_ite, if_neg hne] at this
  have hplain : declarator b.iterations = (b.iterations, none) := by
    rw [hb.iterations]
    exact declarator_append_toString _ _
  have hiter : eval p ⟨g :: fs, now, trace⟩ (Library.tileGetIterations tileVar b.position)
      = some (.obj (p.iterations tile b.position)) :=
    eval_callName (evalAll_place htile)
  have hsize : eval p ⟨opened p tile b f :: fs, now, trace⟩
      (Library.tileLoopSize tileVar b.position) = some (.int (p.loopSize tile b.position)) :=
    eval_callName (evalAll_place hopened.tile)
  have hmem : loopSizeVar ∈ scratch s := List.mem_cons_self
  unfold prologue started
  refine .append (.append (.cons rfl hlocals) (.cons (exec_declare hplain hiter)
    (.single (exec_assign_local hsize (hopened.isSome_lookup hmem))))) ?_
  by_cases ht : s.timing
  · have hm : InTile s tile index (measured p tile b f) := hf.measured hb
    rw [if_pos ht, if_pos ht]
    exact .single (exec_assign_local eval_timeStamp (hm.isSome_lookup (by simp [scratch, ht])))
  · rw [if_neg ht, if_neg ht]
    exact .nil

theorem does_epilogue {n position : Nat} {l : Ledger} {size since : Int} (now : Int)
    (trace : List (Event Obj)) (hf : InTile s tile index f) (hsize : f.lookup loopSizeVar = some (.int size))
    (hstart : s.timing → f.lookup startVar = some (.int since))
    (hkept : s.timing → Kept (accumulators s) n l fs) (hlt : position < n) :
    ∃ f', Does p (epilogue s position) ⟨f :: fs, now, trace⟩
        ⟨f' :: settle s n (l.charge position size [now - since]) fs, now, trace⟩ ∧
      InTile s tile index f' ∧ f'.objects = f.objects := by
  by_cases ht : s.timing
  · have hend : endVar ∈ scratch s := by simp [scratch, ht]
    have hput := hf.put (v := .int now) hend rfl
    refine ⟨f.put endVar (.int now), ?_, hput, hf.objects_put hend rfl⟩
    obtain ⟨htimes, hiters⟩ := accumulators_mem s
    have hstart' : (f.put endVar (.int now)).lookup startVar = some (.int since) := by
      rw [Frame.lookup_put_of_ne (by decide), hstart ht]
    have hend' : (f.put endVar (.int now)).lookup endVar = some (.int now) :=
      Frame.lookup_put_self (hf.isSome_lookup hend)
    have hsize' : (f.put endVar (.int now)).lookup loopSizeVar = some (.int size) := by
      rw [Frame.lookup_put_of_ne (by decide), hsize]
    have hne : ∀ name ∈ outerNames, loopSizeVar ≠ name := by decide
    have htime : eval p ⟨f.put endVar (.int now) :: fs, now, trace⟩
        (.minus (.ident endVar) (.ident startVar)) = some (.int (now - since)) := by
      simp [Expr.minus, eval, Frames.value?_cons_of_some hstart',
        Frames.value?_cons_of_some hend', Value.minus?]
    have hcharge := does_charge (accumulators_ne s)
      ((hkept ht).cons (hput.outer _ htimes) (hput.outer _ hiters)) hlt htime
      (Frames.value?_cons_of_some hsize') (hne _ htimes)
    simp only [book_cons (hput.outer _ htimes) (hput.outer _ hiters)] at hcharge
    rw [epilogue, settle, if_pos ht, if_pos ht]
    exact .cons (exec_assign_local eval_timeStamp (hf.isSome_lookup hend)) hcharge
  · refine ⟨f, ?_, hf, rfl⟩
    rw [epilogue, settle, if_neg ht, if_neg ht]
    exact .nil

/-- **One kernel.** It runs once, sees what it should, and with timing is entered in the
ledger. -/
theorem does_kernel {color n : Nat} {l : Ledger} (kernel : Binding → String)
    (time : Obj → Nat → Int) (now : Int) (trace : List (Event Obj))
    (hf : InTile s tile index f) (hb : b.WellNamed) (hcolor : fs.value? "i" = some (.int color))
    (hkept : s.timing → Kept (accumulators s) n l fs) (hlt : b.position < n)
    (htime : p.duration (kernel b) (entered p tile b ++ f.objects ++ fs.objects)
      = time tile b.position) :
    ∃ f' e, Does p (kernelStmts s kernel b) ⟨f :: fs, now, trace⟩
        ⟨f' :: settle s n
            (l.charge b.position (p.loopSize tile b.position) [time tile b.position]) fs,
          now + time tile b.position, trace ++ [e]⟩ ∧
      InTile s tile index f' ∧ f'.objects = entered p tile b ++ f.objects ∧
      Ran p kernel time ⟨color, index, tile⟩ b e := by
  set g := started p s tile b now f with hg
  have hgt : InTile s tile index g := hf.started hb
  have hobjects : g.objects = entered p tile b ++ f.objects := objects_started hf hb
  have hfragment : exec p (.fragment (kernel b)) ⟨g :: fs, now, trace⟩
      = some (.next,
        ⟨g :: fs, now + time tile b.position, trace ++ [⟨kernel b, g :: fs⟩]⟩) := by
    simp only [exec, State.kernel, Platform.time, Frames.objects_cons, hobjects, htime]
  obtain ⟨f', hepi, hf', hobj⟩ :=
    does_epilogue (p := p) (now + time tile b.position) (trace ++ [⟨kernel b, g :: fs⟩]) hgt
      (lookup_started_size hf hb) (fun ht => lookup_started_start hf hb ht) hkept hlt
  -- the clock moves by the time of the kernel alone, so that is the time measured
  rw [add_sub_cancel_left] at hepi
  refine ⟨f', ⟨kernel b, g :: fs⟩, ?_, hf', by rw [hobj, hobjects],
    ran_started hf hb hcolor htime⟩
  exact .cons rfl (.append (does_prologue hf hb) (.cons hfragment hepi))

end Kernel

/-! ## The kernels of a tile -/

/-- Bindings in the order of their positions. -/
structure Numbered (bs : List Binding) : Prop where
  position : ∀ {k : Nat} {b : Binding}, bs[k]? = some b → b.position = k
  named : ∀ b ∈ bs, b.WellNamed

theorem numbered_bindings (c : Chain) : Numbered (bindings c) := by
  constructor
  · intro k b hb
    simp only [bindings, List.getElem?_map, List.getElem?_zipIdx] at hb
    obtain ⟨⟨l, i⟩, hl, rfl⟩ := Option.map_eq_some_iff.1 hb
    obtain ⟨l', -, heq⟩ := Option.map_eq_some_iff.1 hl
    have := (Prod.mk.inj heq).2
    simp [bind, ← this]
  · intro b hb
    obtain ⟨⟨l, i⟩, -, rfl⟩ := List.mem_map.1 hb
    refine ⟨rfl, ?_⟩
    intro d hd
    obtain ⟨m, -, rfl⟩ := List.mem_map.1 hd
    rfl

/-- The objects of a tile that the first loops make visible. -/
def scope (p : Platform Obj) (tile : Obj) (bs : List Binding) : List Obj :=
  bs.foldl (fun objects b => entered p tile b ++ objects) [tile]

theorem scope_append (p : Platform Obj) (tile : Obj) (bs : List Binding) (b : Binding) :
    scope p tile (bs ++ [b]) = entered p tile b ++ scope p tile bs := by
  simp [scope]

/-- The time that the kernel at a position takes on a tile, with further objects in
scope. -/
def lap (p : Platform Obj) (kernel : Binding → String) (bs : List Binding) (outer : List Obj)
    (tile : Obj) (k : Nat) : Int :=
  match bs[k]? with
  | some b => p.duration (kernel b) (scope p tile (bs.take (k + 1)) ++ outer)
  | none => 0

/-- What a tile needs of the blocks around it. -/
structure Ready (s : Settings) (n : Nat) (x : Obj) (region : Int) (color : Nat) (l : Ledger)
    (fs : Frames Obj) : Prop where
  exec : fs.value? execVar = some (.obj x)
  region : fs.value? regionParam = some (.int region)
  color : fs.value? "i" = some (.int color)
  kept : s.timing → Kept (accumulators s) n l fs

section Tile

variable {p : Platform Obj} {s : Settings} {kernel : Binding → String} {bs : List Binding}
  {n color index : Nat} {x tile : Obj} {region now : Int} {l l' : Ledger} {fs : Frames Obj}
  {trace : List (Event Obj)}

theorem settle_settle : settle s n l (settle s n l' fs) = settle s n l fs := by
  unfold settle
  by_cases ht : s.timing
  · rw [if_pos ht, if_pos ht, if_pos ht, book_book (accumulators_ne s)]
  · rw [if_neg ht, if_neg ht, if_neg ht]

theorem value?_settle {name : String} (h : name ∉ outerNames ∨ name = "i") :
    (settle s n l fs).value? name = fs.value? name := by
  obtain ⟨htimes, hiters⟩ := accumulators_mem s
  obtain ⟨htimes', hiters'⟩ := accumulators_ne_index s
  unfold settle
  by_cases ht : s.timing
  · rw [if_pos ht]
    rcases h with h | rfl
    · exact value?_book (fun heq => h (heq ▸ htimes)) (fun heq => h (heq ▸ hiters))
    · exact value?_book htimes'.symm hiters'.symm
  · rw [if_neg ht]

theorem kept_settle (h : s.timing → Kept (accumulators s) n l fs) (ht : s.timing) :
    Kept (accumulators s) n l' (settle s n l' fs) := by
  rw [settle, if_pos ht]
  exact (h ht).booked (accumulators_ne s)

theorem settle_eq (h : s.timing → Kept (accumulators s) n l fs) : settle s n l fs = fs := by
  unfold settle
  by_cases ht : s.timing
  · rw [if_pos ht, (h ht).book_eq]
  · rw [if_neg ht]

theorem objects_settle (h : s.timing → Kept (accumulators s) n l fs) :
    (settle s n l' fs).objects = fs.objects := by
  unfold settle
  by_cases ht : s.timing
  · rw [if_pos ht, (h ht).objects_book (accumulators_ne s)]
  · rw [if_neg ht]

theorem Ready.settled (h : Ready s n x region color l fs) :
    Ready s n x region color l' (settle s n l' fs) where
  exec := by rw [value?_settle (.inl (by decide)), h.exec]
  region := by rw [value?_settle (.inl (by decide)), h.region]
  color := by rw [value?_settle (.inr rfl), h.color]
  kept := kept_settle h.kept

/-- **The kernels of a tile run once each, in their order.** -/
theorem does_kernels (kernel : Binding → String) (hbs : Numbered bs)
    (hr : Ready s bs.length x region color l fs) :
    ∀ (todo done : List Binding) (f : Frame Obj) (now : Int) (trace : List (Event Obj)),
      done ++ todo = bs → InTile s tile index f → f.objects = scope p tile done →
      let visit m := l.more m (p.loopSize tile ·) fun k => [lap p kernel bs fs.objects tile k]
      ∃ f' now' events, Does p (todo.flatMap (kernelStmts s kernel))
          ⟨f :: settle s bs.length (visit done.length) fs, now, trace⟩
          ⟨f' :: settle s bs.length (visit bs.length) fs, now', trace ++ events⟩ ∧
        List.Forall₂ (Ran p kernel (lap p kernel bs fs.objects) ⟨color, index, tile⟩) todo
          events := by
  intro todo
  induction todo with
  | nil =>
    rintro done f now trace rfl _ _
    refine ⟨f, now, [], ?_, .nil⟩
    simpa using Does.nil
  | cons b todo ih =>
    intro done f now trace hsplit hf hobjects visit
    have hget : bs[done.length]? = some b := by simp [← hsplit]
    have htake : bs.take (done.length + 1) = done ++ [b] := by simp [← hsplit, List.take_append]
    have hposition := hbs.position hget
    have hlt : done.length < bs.length := (List.getElem?_eq_some_iff.1 hget).1
    have hready : Ready s bs.length x region color (visit done.length)
        (settle s bs.length (visit done.length) fs) := hr.settled
    have htime : p.duration (kernel b) (entered p tile b ++ f.objects ++
        (settle s bs.length (visit done.length) fs).objects)
          = lap p kernel bs fs.objects tile b.position := by
      rw [objects_settle hr.kept, hobjects, ← scope_append, ← htake, hposition, lap, hget]
    obtain ⟨f₁, e, hkernel, hf₁, hobjects₁, hran⟩ :=
      does_kernel kernel (lap p kernel bs fs.objects) now trace hf
        (hbs.named b (List.mem_of_getElem? hget)) hready.color hready.kept (hposition ▸ hlt) htime
    rw [settle_settle, hposition, Ledger.charge_more l done.length (p.loopSize tile ·)
      fun k => [lap p kernel bs fs.objects tile k]] at hkernel
    obtain ⟨f', now', events, hrest, hevents⟩ := ih (done ++ [b]) f₁
      (now + lap p kernel bs fs.objects tile done.length) (trace ++ [e]) (by simp [hsplit]) hf₁
      (by rw [hobjects₁, hobjects, scope_append])
    refine ⟨f', now', e :: events, ?_, .cons hran hevents⟩
    rw [List.flatMap_cons]
    refine hkernel.append ?_
    simpa using hrest

/-- The variables of a tile before its kernels. -/
def arrived (s : Settings) (tile : Obj) (index : Nat) : Frame Obj :=
  (if s.timing then [(endVar, .unset), (startVar, .unset)] else []) ++
    [(loopSizeVar, .unset), (tileVar, .obj tile), ("j", .int index)]

theorem inTile_arrived : InTile s tile index (arrived s tile index) := by
  unfold arrived
  by_cases ht : s.timing
  · rw [if_pos ht]
    refine ⟨rfl, rfl, ?_, ?_⟩
    · intro name hname
      have := mem_scratch hname
      simp only [List.mem_cons, List.not_mem_nil, or_false] at this
      rcases this with rfl | rfl | rfl <;> exact ⟨.unset, rfl, rfl⟩
    · simp only [outerNames, List.mem_cons, List.not_mem_nil, or_false]
      rintro name (rfl | rfl | rfl | rfl | rfl) <;> rfl
  · rw [if_neg ht]
    refine ⟨rfl, rfl, ?_, ?_⟩
    · intro name hname
      simp only [scratch, ht, Bool.false_eq_true, if_false, List.mem_singleton] at hname
      subst hname
      exact ⟨.unset, rfl, rfl⟩
    · simp only [outerNames, List.mem_cons, List.not_mem_nil, or_false]
      rintro name (rfl | rfl | rfl | rfl | rfl) <;> rfl

theorem objects_arrived : (arrived s tile index).objects = [tile] := by
  unfold arrived
  split <;> rfl

/-- The statement that looks for the tile. -/
theorem exec_find (index : Nat) (now : Int) (trace : List (Event Obj))
    (hr : Ready s n x region color l fs) :
    exec p (.declare "tile_t*" tileVar (Library.execTileAt execVar "i" "j" regionParam))
        ⟨[("j", .int index)] :: fs, now, trace⟩
      = some (.next, ⟨[(tileVar, match p.tileAt x color index region with
          | some tile => .obj tile
          | none => .null), ("j", .int index)] :: fs, now, trace⟩) := by
  have hj : Frames.value? ([("j", .int index)] :: fs) "j" = some (.int index) :=
    Frames.value?_cons_of_some rfl
  have hout : ∀ name, name ≠ "j" →
      Frames.value? ([("j", .int index)] :: fs) name = fs.value? name := by
    intro name hname
    apply Frames.value?_cons_of_none
    rw [lookup_cons_ite, if_neg hname]
    rfl
  refine exec_declare rfl ?_
  simp only [Library.execTileAt, Expr.callName, eval, evalAll, hj, hout execVar (by decide),
    hout "i" (by decide), hout regionParam (by decide), hr.exec, hr.color, hr.region]
  rfl

/-- A tile that is not there is passed over. -/
theorem iteration_missing (hr : Ready s n x region color l fs)
    (htile : p.tileAt x color index region = none) :
    iteration "j" (execAll p (tileBody s bs kernel)) index ⟨fs, now, trace⟩
      = some (.skip, ⟨fs, now, trace⟩) := by
  have hfind := exec_find (p := p) index now trace hr
  rw [htile] at hfind
  refine block_eq_some (g := [(tileVar, .null), ("j", .int index)]) ?_
  unfold tileBody
  simp only [List.cons_append, execAll, hfind]
  rfl

/-- **A tile that is there runs the kernel of each loop once, in the order of the chain.** -/
theorem iteration_tile (kernel : Binding → String) (now : Int) (trace : List (Event Obj))
    (hbs : Numbered bs) (hr : Ready s bs.length x region color l fs)
    (htile : p.tileAt x color index region = some tile) :
    ∃ now' events, iteration "j" (execAll p (tileBody s bs kernel)) index ⟨fs, now, trace⟩
        = some (.next, ⟨settle s bs.length
            (l.more bs.length (p.loopSize tile ·) fun k => [lap p kernel bs fs.objects tile k]) fs,
          now', trace ++ events⟩) ∧
      List.Forall₂ (Ran p kernel (lap p kernel bs fs.objects) ⟨color, index, tile⟩) bs events := by
  have hfind := exec_find (p := p) index now trace hr
  rw [htile] at hfind
  obtain ⟨f', now', events, hkernels, hevents⟩ := does_kernels (p := p) kernel hbs hr bs []
    (arrived s tile index) now trace rfl inTile_arrived objects_arrived
  simp only [List.length_nil, Ledger.more_zero, settle_eq hr.kept] at hkernels
  refine ⟨now', events, block_eq_some (g := f') ?_, hevents⟩
  have hcheck : exec p (.ifThen (.not (.ident tileVar)) [.continueLoop])
        ⟨[(tileVar, .obj tile), ("j", .int index)] :: fs, now, trace⟩
      = some (.next, ⟨[(tileVar, .obj tile), ("j", .int index)] :: fs, now, trace⟩) := rfl
  refine Does.append (.append (.cons hfind (.cons hcheck (.single (exec_declareBare rfl)))) ?_)
    hkernels
  by_cases ht : s.timing
  · rw [if_pos ht, arrived, if_pos ht]
    exact .cons (exec_declareBare rfl) (.single (exec_declareBare rfl))
  · rw [if_neg ht, arrived, if_neg ht]
    exact .nil

end Tile

end SparseTiling.Executor
