import SparseTiling.Proofs.Code.Quoted
import SparseTiling.Proofs.Generation.Names

/-!
# Names in literals

An inspector tells the tiling library the names of the chain and of its loops, and an executor
asks it for the parts of maps by their names. These names stand in emitted code as literals, and
they may be any text: none of them ends its literal early.

* `Inspector.quotedNames`, `Executor.quotedNames`: the names that stand in literals.
* `Inspector.str_mem_program`, `Executor.str_mem_program`: where they stand.
* `literals_read_back`: literals are read to their end in every context, in emitted code too.
-/

namespace SparseTiling

open Code

theorem str_mem_callName {function name : String} {args : List Expr} (h : .str name ∈ args) :
    .str name ∈ (Expr.callName function args).parts := by
  have hself : .str name ∈ (Expr.str name).parts := List.mem_singleton_self _
  rw [Expr.callName, Expr.parts, Expr.partsAll_eq]
  exact List.mem_cons_of_mem _ (List.mem_append_right _ (List.mem_flatMap.2 ⟨_, h, hself⟩))

namespace Inspector

variable {c : Chain} {s : Settings}

/-- The names that an inspector holds in literals: of the chain, of its loops, and of the maps
from sets to their parts. -/
def quotedNames (c : Chain) : List String :=
  c.name :: (c.loops.zipIdx.map fun l => l.1.runtimeName l.2) ++
    (partitioningRows c).map fun p => p.1.mapName

theorem str_mem_program (seed : Nat) :
    ∀ name ∈ quotedNames c, .str name ∈ expressions (program c s seed) := by
  -- all of them stand in the one function of the file
  have hbody {st : Stmt} {e : Expr} {name : String} (hst : st ∈ body c s seed)
      (he : st.exprs = [e]) (hname : .str name ∈ e.parts) :
      .str name ∈ expressions (program c s seed) := by
    have hfunction : .function (signature c) (body c s seed) ∈ program c s seed := by
      simp [program]
    refine mem_expressions.2 ⟨_, hfunction, e, ?_, hname⟩
    rw [Stmt.exprs, Stmt.exprsAll_eq]
    exact List.mem_flatMap.2 ⟨st, hst, he ▸ List.mem_singleton_self e⟩
  have hinits : initStmts c s ⊆ body c s seed := fun st hst => by simp [body_eq, hst]
  have hloops : loopStmts c ⊆ body c s seed := fun st hst => by simp [body_eq, hst]
  have hparts : partSection c ⊆ body c s seed := fun st hst => by simp [body_eq, hst]
  simp only [quotedNames, List.cons_append, List.forall_mem_cons, List.forall_mem_append,
    List.forall_mem_map]
  refine ⟨?_, fun l hl => ?_, fun p hp => ?_⟩
  · have hinit := hinits (List.mem_of_getLast? rfl)
    exact hbody hinit rfl (str_mem_callName (by simp))
  · have hloop := hloops (List.mem_map_of_mem hl)
    exact hbody hloop rfl (str_mem_callName (by simp))
  · have hdecl : .declare "map_t*" p.1.mapName (Library.partMap p.1.mapName p.1.set p.1.partsName
        partitioningsTable p.2) ∈ partitioningStmts c :=
      List.mem_append_left _ (List.mem_flatMap.2 ⟨p, hp, List.mem_of_getLast? rfl⟩)
    have hmap := hparts (List.mem_cons_of_mem _ (List.mem_cons_of_mem _ hdecl))
    exact hbody hmap rfl (str_mem_callName (by simp))

end Inspector

namespace Executor

variable {c : Chain} {s : Settings} {bs : List Binding} {kernel : Binding → String}

/-- The names that an executor holds in literals: of the maps that its loops use, and with
timing that of the chain. -/
def quotedNames (c : Chain) (s : Settings) : List String :=
  c.loops.flatMap Loop.indirectMaps ++ if s.timing then [c.name] else []

theorem exprs_subset_colorBody (count : Nat) (tiles : Stmt) :
    tiles.exprs ⊆ Stmt.exprsAll (colorBody s count tiles) := by
  unfold colorBody timedParallel
  intro e he
  cases s.execution.isShared <;> cases s.timing <;>
    simp [Stmt.exprsAll, Stmt.exprs, he]

/-- What stands in a tile stands in the walk over the tiles. -/
theorem exprs_subset_colorLoop {st : Stmt} (h : st ∈ tileBody s bs kernel) :
    st.exprs ⊆ (colorLoop s bs kernel).exprs := by
  intro e he
  have htile : e ∈ Stmt.exprsAll (tileBody s bs kernel) := by
    rw [Stmt.exprsAll_eq]
    exact List.mem_flatMap.2 ⟨st, h, he⟩
  have htiles : e ∈ (Stmt.forRange "j" (.ident tileCount) (tileBody s bs kernel)).exprs :=
    List.mem_cons_of_mem _ htile
  have hcolor := exprs_subset_colorBody (s := s) bs.length _ htiles
  exact List.mem_cons_of_mem _ (List.mem_append_right _ hcolor)

theorem str_mem_colorLoop {b : Binding} (hb : b ∈ bs) {m : String × String}
    (hm : m ∈ b.localMaps) : ∃ e ∈ (colorLoop s bs kernel).exprs, .str m.1 ∈ e.parts := by
  have hinit : (m.2, Library.tileGetLocalMap tileVar b.position m.1) ∈ b.inits :=
    List.mem_append_left _ (List.mem_map_of_mem hm)
  have hprologue : .declare "iterations_list&" m.2
      (Library.tileGetLocalMap tileVar b.position m.1) ∈ prologue s b := by
    rw [prologue_eq]
    exact List.mem_cons_of_mem _ (List.mem_append_left _ (List.mem_map_of_mem hinit))
  have htile : .declare "iterations_list&" m.2
      (Library.tileGetLocalMap tileVar b.position m.1) ∈ tileBody s bs kernel := by
    refine List.mem_append_right _ (List.mem_flatMap.2 ⟨b, hb, ?_⟩)
    exact List.mem_append_left _ (List.mem_cons_of_mem _ hprologue)
  have hexpr := exprs_subset_colorLoop htile (List.mem_singleton_self _)
  exact ⟨_, hexpr, str_mem_callName (by simp)⟩

theorem str_mem_reportPath (chain : String) : .str chain ∈ (reportPath chain).parts := by
  simp [reportPath, Expr.stream, Expr.parts]

theorem str_mem_program : ∀ name ∈ quotedNames c s,
    .str name ∈ expressions (program c.name s (bindings c) kernel) := by
  intro name hname
  rw [mem_expressions]
  rcases List.mem_append.1 hname with hmap | hchain
  · obtain ⟨l, hl, hm⟩ := List.mem_flatMap.1 hmap
    obtain ⟨i, hi⟩ := List.getElem?_of_mem hl
    have hb : bind l i ∈ bindings c := List.mem_of_getElem? (getElem?_bindings hi)
    have hlocal : (name, localMapName i name) ∈ (bind l i).localMaps := List.mem_map_of_mem hm
    obtain ⟨e, he, hpart⟩ : ∃ e ∈ (colorLoop s (bindings c) kernel).exprs, .str name ∈ e.parts :=
      str_mem_colorLoop hb hlocal
    exact ⟨colorLoop s (bindings c) kernel, by simp [program], e, he, hpart⟩
  · split at hchain
    · next htiming =>
      obtain rfl := List.mem_singleton.1 hchain
      refine ⟨.expr (reportPath c.name), ?_, _, List.mem_singleton_self _,
        str_mem_reportPath c.name⟩
      simp [program, htiming, timingReport]
    · cases hchain

end Executor

/-- **Literals survive printing.** Whatever follows the literal of a text, it is read to its end
and no further, as that text; it holds no control character. So different texts have different
literals, and no part in front of the last quote is a literal already. In the source of every
generated inspector and executor, the names of the chain, its loops and its maps stand as literals
that are read so. -/
theorem literals_read_back :
    (∀ text rest, Literal.read ((quote text).toList ++ rest) = some (text, rest)) ∧
    (∀ text, ∀ c ∈ (quote text).toList, 0x20 ≤ c.toNat ∧ c.toNat ≠ 0x7F) ∧
    Function.Injective quote ∧
    (∀ text front back, (quote text).toList = front ++ back → back ≠ [] →
      Literal.read front = none) ∧
    (∀ c s e, Inspector.generate c s = .ok e →
      ∀ name ∈ Inspector.quotedNames c, Literal.StandsIn name e.source) ∧
    ∀ c s e, Executor.Emits c s e →
      ∀ name ∈ Executor.quotedNames c s, Literal.StandsIn name e.source := by
  refine ⟨Literal.read_quote, fun text c hc => Literal.printable_of_mem_quote hc,
    Literal.quote_injective, ?_, ?_, ?_⟩
  · intro text front back hsplit hback
    exact Literal.read_eq_none_of_append hsplit hback
  · intro c s e he name hname
    obtain ⟨seed, -, he⟩ := bind_eq_ok he
    obtain rfl := Except.ok.inj he
    exact Literal.standsIn_render (Inspector.str_mem_program seed name hname)
  · intro c s e he name hname
    obtain ⟨kernel, hsource⟩ := he.source
    rw [hsource]
    exact Literal.standsIn_render (Executor.str_mem_program name hname)

/-- A chain, a loop and a map whose names hold quotes, backslashes and a control character in
front of a digit. -/
def oddCalls : List Chain.Call :=
  [.declareSets [{ name := "cells", core := 8 }],
    .declareMaps [⟨"next\"", "cells", "cells", [0, 1]⟩],
    .declareLoops [⟨"relax\\", "cells", [.through "next\"" .read, .direct .write]⟩]]

theorem literals_read_back_odd : ∃ i e,
    Inspector.generate ((Chain.new "ring\x019\");").afterAll oddCalls) {} = .ok i ∧
    Literal.StandsIn "ring\x019\");" i.source ∧ Literal.StandsIn "relax\\_Loop_0" i.source ∧
    Executor.generate ((Chain.new "ring\x019\");").afterAll oddCalls) {} ["relax();"] = .ok e ∧
    Literal.StandsIn "next\"" e.source ∧
    quote "ring\x019\");" = "\"ring\\0019\\\");\"" ∧
    Literal.read "\"ring\\0019\\\"".toList = none := by
  obtain ⟨-, -, -, hearly, hinspector, hexecutor⟩ := literals_read_back
  have hinspect : Inspector.check ((Chain.new "ring\x019\");").afterAll oddCalls) {} = .ok 0 := by
    cbv
  have hcheck : Executor.check ((Chain.new "ring\x019\");").afterAll oddCalls) =
      .ok (Executor.bindings ((Chain.new "ring\x019\");").afterAll oddCalls)) := by cbv
  have hnames : Inspector.quotedNames ((Chain.new "ring\x019\");").afterAll oddCalls) =
      ["ring\x019\");", "relax\\_Loop_0"] := by cbv
  have hmaps : Executor.quotedNames ((Chain.new "ring\x019\");").afterAll oddCalls) {} =
      ["next\""] := by cbv
  have hquote : quote "ring\x019\");" = "\"ring\\0019\\\");\"" := by decide
  obtain ⟨i, hi, -⟩ := Inspector.generate_of_check hinspect
  obtain ⟨e, he⟩ : ∃ e, Executor.generate ((Chain.new "ring\x019\");").afterAll oddCalls) {}
      ["relax();"] = .ok e := Executor.generate_of_check hcheck _ rfl
  have hstands := hinspector _ _ i hi
  have hstands' := hexecutor _ _ e (.inr ⟨_, he⟩)
  rw [hnames, List.forall_mem_cons, List.forall_mem_singleton] at hstands
  rw [hmaps, List.forall_mem_singleton] at hstands'
  refine ⟨i, e, hi, hstands.1, hstands.2, he, hstands', hquote, ?_⟩
  -- up to the quote inside the name
  refine hearly "ring\x019\");" _ [')', ';', '"'] ?_ (by simp)
  rw [hquote]
  rfl

end SparseTiling
