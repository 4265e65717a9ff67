import Mathlib.Tactic
import SparseTiling.Proofs.Chain.References
import SparseTiling.Proofs.Executor.Tile

/-!
# Schedules

Which tiles an executor visits, which kernels run on them, and what its sums are
afterwards. Colors come in increasing order. The tiles of one color come in an order that
is a parameter here: increasing without threads, and any order with them.

* `visits`: the tiles of an executor, color by color.
* `RanAll`: events that are the runs of all kernels on tiles one after another.
* `tally`: the sums after a list of visits.
* `iteration_index`: one iteration of the innermost loop; `forEach_tiles`: several.
-/

namespace SparseTiling.Executor

open Code

variable {Obj : Type}

/-! ## Visits -/

/-- The number of colors. -/
def colorsOf (p : Platform Obj) (x : Obj) : Nat := (p.numColors x).toNat

/-- The number of tiles of a color. -/
def tilesOf (p : Platform Obj) (x : Obj) (color : Nat) : Nat := (p.tilesPerColor x color).toNat

/-- The tiles of a color that are there, for a list of indices. -/
def tilesAt (p : Platform Obj) (x : Obj) (region : Int) (color : Nat) (order : List Nat) :
    List (Visit Obj) :=
  order.filterMap fun (index : Nat) =>
    (p.tileAt x color index region).map fun tile => { color, index, tile }

/-- **The tiles of an executor:** colors in increasing order, and the tiles of each color
in increasing order. -/
def visits (p : Platform Obj) (x : Obj) (region : Int) : List (Visit Obj) :=
  (List.range (colorsOf p x)).flatMap fun color =>
    tilesAt p x region color (List.range (tilesOf p x color))

/-- The tiles of some colors, those of each color in increasing order. -/
def tilesIn (p : Platform Obj) (x : Obj) (region : Int) (colors : List Nat) : List (Visit Obj) :=
  colors.flatMap fun color => tilesAt p x region color (List.range (tilesOf p x color))

/-- Every kernel on every tile, tile by tile. -/
def runsOf (bs : List Binding) (vs : List (Visit Obj)) : List (Visit Obj × Binding) :=
  vs.flatMap fun v => bs.map fun b => (v, b)

/-- Events are the runs of all kernels on tiles one after another. -/
def RanAll (p : Platform Obj) (kernel : Binding → String) (time : Obj → Nat → Int)
    (bs : List Binding) (vs : List (Visit Obj)) (events : List (Event Obj)) : Prop :=
  List.Forall₂ (fun r e => Ran p kernel time r.1 r.2 e) (runsOf bs vs) events

section Visits

variable {p : Platform Obj} {x : Obj} {region : Int} {color : Nat} {kernel : Binding → String}
  {time : Obj → Nat → Int} {bs : List Binding} {vs ws : List (Visit Obj)}
  {events events' : List (Event Obj)}

theorem tilesAt_append (order order' : List Nat) : tilesAt p x region color (order ++ order')
    = tilesAt p x region color order ++ tilesAt p x region color order' := by
  simp [tilesAt]

theorem color_of_mem_tilesAt {order : List Nat} {v : Visit Obj}
    (h : v ∈ tilesAt p x region color order) : v.color = color := by
  obtain ⟨index, -, hv⟩ := List.mem_filterMap.1 h
  obtain ⟨tile, -, rfl⟩ := Option.map_eq_some_iff.1 hv
  rfl

theorem RanAll.nil : RanAll p kernel time bs [] [] := List.Forall₂.nil

theorem RanAll.append (h : RanAll p kernel time bs vs events)
    (h' : RanAll p kernel time bs ws events') :
    RanAll p kernel time bs (vs ++ ws) (events ++ events') := by
  unfold RanAll runsOf
  rw [List.flatMap_append]
  exact List.rel_append h h'

theorem RanAll.single {v : Visit Obj} (h : List.Forall₂ (Ran p kernel time v) bs events) :
    RanAll p kernel time bs [v] events := by
  unfold RanAll runsOf
  rw [List.flatMap_singleton, List.forall₂_map_left_iff]
  exact h

end Visits

/-! ## Sums -/

/-- The sums after a list of visits. -/
def tally (p : Platform Obj) (time : Obj → Nat → Int) (vs : List (Visit Obj)) (l : Ledger) :
    Ledger :=
  fun k => ((l k).1 + (vs.map fun v => p.loopSize v.tile k).sum,
    (l k).2 ++ vs.map fun v => time v.tile k)

section Sums

variable {p : Platform Obj} {time : Obj → Nat → Int} {s : Settings} {n : Nat} {l l' : Ledger}
  {f : Frame Obj} {fs : Frames Obj}

theorem tally_nil : tally p time [] l = l := by
  funext k
  simp [tally]

theorem tally_append (vs ws : List (Visit Obj)) :
    tally p time (vs ++ ws) l = tally p time ws (tally p time vs l) := by
  funext k
  simp [tally, add_assoc]

theorem tally_blank (vs : List (Visit Obj)) (k : Nat) : tally p time vs .blank k
    = ((vs.map fun v => p.loopSize v.tile k).sum, vs.map fun v => time v.tile k) := by
  simp [tally, Ledger.blank]

theorem settle_congr (h : ∀ k < n, l k = l' k) : settle s n l fs = settle s n l' fs := by
  unfold settle
  rw [book_congr h]

theorem settle_more (v : Visit Obj) :
    settle s n (l.more n (p.loopSize v.tile ·) fun k => [time v.tile k]) fs
      = settle s n (tally p time [v] l) fs := by
  refine settle_congr fun k hk => ?_
  simp [Ledger.more, tally, hk]

theorem lookup_accumulators (h : ∀ name ∈ outerNames, name ≠ "i" → f.lookup name = none) :
    f.lookup (accumulators s).1 = none ∧ f.lookup (accumulators s).2 = none :=
  ⟨h _ (accumulators_mem s).1 (accumulators_ne_index s).1,
    h _ (accumulators_mem s).2 (accumulators_ne_index s).2⟩

theorem settle_cons (h : ∀ name ∈ outerNames, name ≠ "i" → f.lookup name = none) :
    settle s n l (f :: fs) = f :: settle s n l fs := by
  have hbooks := lookup_accumulators (s := s) h
  unfold settle
  split
  · exact book_cons hbooks.1 hbooks.2
  · rfl

end Sums

/-! ## The innermost loop -/

section Tiles

variable {p : Platform Obj} {s : Settings} {bs : List Binding} {color : Nat} {x : Obj}
  {region : Int} {l : Ledger} {fs : Frames Obj}

/-- One iteration of the innermost loop, whether its tile is there or not. -/
theorem iteration_index (kernel : Binding → String) (index : Nat) (now : Int)
    (trace : List (Event Obj)) (hbs : Numbered bs) (hr : Ready s bs.length x region color l fs) :
    let time := lap p kernel bs fs.objects
    let vs := tilesAt p x region color [index]
    ∃ flow now' events, iteration "j" (execAll p (tileBody s bs kernel)) index ⟨fs, now, trace⟩
        = some (flow, ⟨settle s bs.length (tally p time vs l) fs, now', trace ++ events⟩) ∧
      flow ≠ .leave ∧ RanAll p kernel time bs vs events := by
  intro time vs
  cases htile : p.tileAt x color index region with
  | none =>
    have hvs : vs = [] := by simp [vs, tilesAt, htile]
    refine ⟨.skip, now, [], ?_, by decide, hvs ▸ .nil⟩
    rw [hvs, tally_nil, settle_eq hr.kept, List.append_nil]
    exact iteration_missing hr htile
  | some tile =>
    have hvs : vs = [⟨color, index, tile⟩] := by simp [vs, tilesAt, htile]
    obtain ⟨now', events, hrun, hran⟩ := iteration_tile kernel now trace hbs hr htile
    refine ⟨.next, now', events, ?_, by decide, hvs ▸ .single hran⟩
    rw [hvs, ← settle_more]
    exact hrun

/-- **The tiles of a color, in any order of their indices.** -/
theorem forEach_tiles (kernel : Binding → String) (order : List Nat) (now : Int)
    (trace : List (Event Obj)) (hbs : Numbered bs) (hr : Ready s bs.length x region color l fs) :
    let time := lap p kernel bs fs.objects
    let vs := tilesAt p x region color order
    ∃ now' events, forEach (iteration "j" (execAll p (tileBody s bs kernel))) order
        ⟨fs, now, trace⟩
        = some (.next, ⟨settle s bs.length (tally p time vs l) fs, now', trace ++ events⟩) ∧
      RanAll p kernel time bs vs events := by
  intro time vs
  -- after some indices, the sums and the trace are those of the tiles at these indices
  let Inv (before : List Nat) (τ : State Obj) : Prop := ∃ now' events,
    τ = ⟨settle s bs.length (tally p time (tilesAt p x region color before) l) fs, now',
      trace ++ events⟩ ∧ RanAll p kernel time bs (tilesAt p x region color before) events
  have h₀ : Inv [] ⟨fs, now, trace⟩ :=
    ⟨now, [], by simp [tilesAt, tally_nil, settle_eq hr.kept], .nil⟩
  obtain ⟨σ', hrun, now', events, rfl, hran⟩ := forEach_spec _ order Inv h₀ (by
    rintro before k after τ - ⟨now₁, events₁, rfl, hran₁⟩
    obtain ⟨flow, now₂, events₂, hrun, hflow, hran₂⟩ :=
      iteration_index (p := p) kernel k now₁ (trace ++ events₁) hbs hr.settled
    rw [objects_settle hr.kept] at hrun hran₂
    refine ⟨flow, _, hrun, hflow, now₂, events₁ ++ events₂, ?_, ?_⟩
    · rw [settle_settle, tilesAt_append, tally_append, List.append_assoc]
    · rw [tilesAt_append]
      exact hran₁.append hran₂)
  exact ⟨now', events, hrun, hran⟩

end Tiles

/-! ## A color -/

/-- What a color needs of the blocks around it. -/
structure Base (s : Settings) (n : Nat) (x : Obj) (region : Int) (l : Ledger) (fs : Frames Obj) :
    Prop where
  exec : fs.value? execVar = some (.obj x)
  region : fs.value? regionParam = some (.int region)
  kept : s.timing → Kept (accumulators s) n l fs

/-- The variables of a color. -/
def colorFrame (p : Platform Obj) (x : Obj) (color : Nat) : Frame Obj :=
  [(tileCount, .int (p.tilesPerColor x color)), ("i", .int color)]

/-- The statements of a color. -/
def colorStmts (s : Settings) (bs : List Binding) (kernel : Binding → String) : List Stmt :=
  .declare "const int" tileCount (Library.execTilesPerColor execVar "i") ::
    colorBody s bs.length (.forRange "j" (.ident tileCount) (tileBody s bs kernel))

section Color

variable {p : Platform Obj} {s : Settings} {n color : Nat} {x : Obj} {region now : Int}
  {l l' : Ledger} {fs : Frames Obj} {trace : List (Event Obj)}

theorem lookup_colorFrame {name : String} (ht : name ≠ tileCount) (hi : name ≠ "i") :
    (colorFrame p x color).lookup name = none := by
  simp [colorFrame, lookup_cons_ite, ht, hi]

theorem lookup_colorFrame_outer (p : Platform Obj) (x : Obj) (color : Nat) :
    ∀ name ∈ outerNames, name ≠ "i" → (colorFrame p x color).lookup name = none := by
  intro name hname hi
  have hcount : ∀ m ∈ outerNames, m ≠ tileCount := by decide
  exact lookup_colorFrame (hcount name hname) hi

theorem Base.ready (p : Platform Obj) (color : Nat) (h : Base s n x region l fs) :
    Ready s n x region color l (colorFrame p x color :: fs) where
  exec := by
    rw [Frames.value?_cons_of_none (lookup_colorFrame (by decide) (by decide)), h.exec]
  region := by
    rw [Frames.value?_cons_of_none (lookup_colorFrame (by decide) (by decide)), h.region]
  color := Frames.value?_cons_of_some rfl
  kept ht := by
    obtain ⟨htimes, hiters⟩ := lookup_accumulators (s := s) (lookup_colorFrame_outer p x color)
    exact (h.kept ht).cons htimes hiters

theorem Base.settled (h : Base s n x region l fs) : Base s n x region l' (settle s n l' fs) where
  exec := by rw [value?_settle (.inl (by decide)), h.exec]
  region := by rw [value?_settle (.inl (by decide)), h.region]
  kept := kept_settle h.kept

/-- The statement that looks up the number of tiles. -/
theorem exec_tileCount (h : fs.value? execVar = some (.obj x)) :
    exec p (.declare "const int" tileCount (Library.execTilesPerColor execVar "i"))
        ⟨[("i", .int color)] :: fs, now, trace⟩
      = some (.next, ⟨colorFrame p x color :: fs, now, trace⟩) := by
  have hi : Frames.value? ([("i", .int color)] :: fs) "i" = some (.int color) :=
    Frames.value?_cons_of_some rfl
  have hexec : Frames.value? ([("i", .int color)] :: fs) execVar = some (.obj x) :=
    (Frames.value?_cons_of_none rfl).trans h
  refine exec_declare rfl ?_
  simp only [Library.execTilesPerColor, Expr.callName, eval, evalAll, hi, hexec]
  rfl

end Color

/-! ## In the words of a chain -/

/-- An event is the run of the kernel of a loop, at a position of a chain, on a tile: it
sees the size of the loop there, the iterations, and the part of each map of the loop. -/
structure KernelRun (p : Platform Obj) (kernels : List String) (v : Visit Obj) (l : Loop)
    (i : Nat) (e : Event Obj) : Prop where
  text : kernels[i]? = some e.text
  color : e.frames.value? "i" = some (.int v.color)
  index : e.frames.value? "j" = some (.int v.index)
  tile : e.frames.value? "tile" = some (.obj v.tile)
  size : e.frames.value? "tileLoopSize" = some (.int (p.loopSize v.tile i))
  iterations : e.frames.value? ("iterations_" ++ toString i) = some (.obj (p.iterations v.tile i))
  locals : ∀ d ∈ l.descriptors, ∀ m, d.map = .map m →
    e.frames.value? ("loc_" ++ m ++ "_" ++ toString i) = some (.obj (p.localMap v.tile i m))

/-- Every loop of a chain on every tile, tile by tile. -/
def schedule (c : Chain) (vs : List (Visit Obj)) : List (Visit Obj × Loop × Nat) :=
  vs.flatMap fun v => c.loops.zipIdx.map fun l => (v, l)

/-- The kernels of an executor, by their positions. -/
def kernelAt (kernels : List String) (b : Binding) : String := kernels[b.position]?.getD ""

/-- The statements of a generated executor. -/
def programOf (c : Chain) (s : Settings) (kernels : List String) : List Stmt :=
  program c.name s (bindings c) (kernelAt kernels)

section Words

variable {p : Platform Obj} {c : Chain} {kernels : List String} {time : Obj → Nat → Int}
  {vs : List (Visit Obj)} {events : List (Event Obj)}

theorem length_bindings : (bindings c).length = c.loops.length := by
  simp [bindings]

/-- A chain that passes the checks has its names declared, and gives its bindings. -/
theorem check_eq_ok {bs : List Binding} (h : check c = .ok bs) :
    c.Resolved ∧ bs = bindings c := by
  obtain ⟨-, -, h⟩ := bind_eq_ok h
  obtain ⟨_, hreferences, h⟩ := bind_eq_ok h
  exact ⟨Chain.checkReferences_eq_ok.1 hreferences, (Except.ok.inj h).symm⟩

theorem generateWith_eq_ok {s : Settings} {kernel : Binding → String} {e : Emission}
    (h : generateWith c s kernel = .ok e) : c.Resolved ∧ e = emit c s (bindings c) kernel := by
  obtain ⟨bs, hcheck, h⟩ := bind_eq_ok h
  obtain ⟨hresolved, rfl⟩ := check_eq_ok hcheck
  exact ⟨hresolved, (Except.ok.inj h).symm⟩

theorem generateWith_of_check {bs : List Binding} (h : check c = .ok bs) (s : Settings)
    (kernel : Binding → String) : generateWith c s kernel = .ok (emit c s bs kernel) := by
  rw [generateWith, h]
  rfl

theorem generate_of_check {bs : List Binding} (h : check c = .ok bs) (s : Settings)
    (hlen : kernels.length = bs.length) : ∃ e, generate c s kernels = .ok e := by
  rw [generate, h]
  exact ⟨_, if_pos hlen⟩

/-- A generated executor consists of its statements, with one kernel for each loop. -/
theorem generate_eq_ok {s : Settings} {e : Emission} (h : generate c s kernels = .ok e) :
    e.source = Code.render (programOf c s kernels) ∧ kernels.length = c.loops.length := by
  unfold generate at h
  obtain ⟨bs, hcheck, h⟩ := bind_eq_ok h
  obtain ⟨-, rfl⟩ := check_eq_ok hcheck
  by_cases hlen : kernels.length = (bindings c).length
  · rw [if_pos hlen] at h
    obtain rfl : _ = e := by simpa [pure, Except.pure] using h
    exact ⟨rfl, hlen.trans length_bindings⟩
  · rw [if_neg hlen] at h
    cases h

theorem mem_foldl_dedup {m : String} (names maps : List String) :
    m ∈ names.foldl (fun maps name => if name ∈ maps then maps else maps ++ [name]) maps ↔
      m ∈ maps ∨ m ∈ names := by
  induction names generalizing maps with
  | nil => simp
  | cons name names ih =>
    rw [List.foldl_cons, ih]
    by_cases h : name ∈ maps
    · rw [if_pos h]
      constructor
      · rintro (hm | hm)
        · exact .inl hm
        · exact .inr (List.mem_cons_of_mem _ hm)
      · rintro (hm | hm)
        · exact .inl hm
        · rcases List.mem_cons.1 hm with rfl | hm
          · exact .inl h
          · exact .inr hm
    · rw [if_neg h]
      rw [List.mem_append, List.mem_singleton, List.mem_cons, or_assoc]

theorem mem_indirectMaps {l : Loop} {m : String} :
    m ∈ l.indirectMaps ↔ ∃ d ∈ l.descriptors, d.map = .map m := by
  unfold Loop.indirectMaps
  rw [mem_foldl_dedup, List.mem_filterMap]
  constructor
  · rintro (h | ⟨d, hd, hm⟩)
    · simp at h
    · refine ⟨d, hd, ?_⟩
      cases hmap : d.map with
      | direct => simp [hmap, MapRef.mapName?] at hm
      | map name => simpa [hmap, MapRef.mapName?] using hm
  · rintro ⟨d, hd, hm⟩
    exact .inr ⟨d, hd, by rw [hm]; rfl⟩

theorem Ran.kernelRun {v : Visit Obj} {l : Loop} {i : Nat} {e : Event Obj}
    (h : Ran p (kernelAt kernels) time v (bind l i) e) (hi : i < kernels.length) :
    KernelRun p kernels v l i e where
  text := by
    rw [h.text, kernelAt]
    simp [bind, hi]
  color := h.color
  index := h.index
  tile := h.tile
  size := h.size
  iterations := h.iterations
  locals d hd m hm := h.locals (m, localMapName i m)
    (List.mem_map.2 ⟨m, mem_indirectMaps.2 ⟨d, hd, hm⟩, rfl⟩)

/-- Runs of all kernels, in the words of a chain. -/
theorem RanAll.kernelRuns (hlen : kernels.length = c.loops.length)
    (h : RanAll p (kernelAt kernels) time (bindings c) vs events) :
    List.Forall₂ (fun r e => KernelRun p kernels r.1 r.2.1 r.2.2 e ∧
      p.time e = time r.1.tile r.2.2) (schedule c vs) events := by
  have hruns : runsOf (bindings c) vs
      = (schedule c vs).map fun r => (r.1, bind r.2.1 r.2.2) := by
    simp [runsOf, schedule, bindings, List.map_flatMap, Function.comp_def]
  have hmem : ∀ r ∈ schedule c vs, r.2.2 < kernels.length := by
    intro r hr
    obtain ⟨v, -, hv⟩ := List.mem_flatMap.1 hr
    obtain ⟨⟨l, i⟩, hl, rfl⟩ := List.mem_map.1 hv
    have hlt : i < c.loops.length := (List.mem_zipIdx' hl).1
    exact hlen ▸ hlt
  unfold RanAll at h
  rw [hruns, List.forall₂_map_left_iff] at h
  refine ((List.forall₂_and_left _ _).2 ⟨hmem, h⟩).imp ?_
  rintro ⟨v, l, i⟩ e ⟨hi, hran⟩
  exact ⟨hran.kernelRun hi, hran.time⟩

end Words

end SparseTiling.Executor
