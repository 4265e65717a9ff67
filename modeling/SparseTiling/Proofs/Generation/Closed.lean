import SparseTiling.Proofs.Executor.Schedule
import SparseTiling.Proofs.Executor.Scoped
import SparseTiling.Proofs.Inspector.Closed

/-!
# Emitted code is closed

No identifier of emitted code is used before or outside its declaration. This puts together
what is known of inspectors and of executors.
-/

namespace SparseTiling

open Code (Stmt declarations render)
open Inspector (ClosedIn edgeCalls edgeSettings)

/-- **Emitted code is closed.** For every chain that calls can build, in a generated
inspector each statement uses parameters, names of the tiling library and variables declared
by statements before it, and each object that it hands to the library is a variable declared
before with the type that is taken there. In a generated executor, kernels apart, each
identifier is a parameter, a name of a library, or a variable declared before in the same
block or in one around it. -/
theorem generate_closed (name : String) (calls : List Chain.Call) (s : Settings) :
    (∀ e, Inspector.generate ((Chain.new name).afterAll calls) s = .ok e →
      ∃ program body, Inspector.programOf ((Chain.new name).afterAll calls) s = .ok program ∧
        e.source = render program ∧ Inspector.bodyOf program = some body ∧
        ∀ before st after, body = before ++ st :: after →
          ClosedIn ((Chain.new name).afterAll calls) (declarations before) st) ∧
    (∀ kernels e, Executor.generate ((Chain.new name).afterAll calls) s kernels = .ok e →
      e.source = render (Executor.programOf ((Chain.new name).afterAll calls) s kernels) ∧
        Stmt.ScopedAll Executor.ambient
          (Executor.programOf ((Chain.new name).afterAll calls) s kernels)) ∧
    ∀ kernel e, Executor.generateWith ((Chain.new name).afterAll calls) s kernel = .ok e →
      e.source = render (Executor.program ((Chain.new name).afterAll calls).name s e.bindings
          kernel) ∧
        Stmt.ScopedAll Executor.ambient
          (Executor.program ((Chain.new name).afterAll calls).name s e.bindings kernel) := by
  refine ⟨fun e h => ?_, fun kernels e h => ?_, fun kernel e h => ?_⟩
  · obtain ⟨seed, hcheck, he⟩ := bind_eq_ok h
    obtain rfl := Except.ok.inj he
    have hbody := Inspector.successive_body (Chain.sound_afterAll name calls) hcheck
    refine ⟨Inspector.program _ s seed, _, Inspector.programOf_of_check hcheck, rfl,
      Inspector.bodyOf_program seed, ?_⟩
    simpa using Code.successive_iff.1 hbody
  · exact ⟨(Executor.generate_eq_ok h).1, Executor.scopedAll_program _ _ _⟩
  · obtain ⟨bs, -, he⟩ := bind_eq_ok h
    obtain rfl := Except.ok.inj he
    exact ⟨rfl, Executor.scopedAll_program _ _ _⟩

/-- The edges, with mesh maps, a partitioning and a report, timed on several threads. -/
theorem generate_closed_edges :
    (∃ program body,
      Inspector.programOf ((Chain.new "airfoil").afterAll edgeCalls) edgeSettings = .ok program ∧
        Inspector.bodyOf program = some body ∧
        ∀ before st after, body = before ++ st :: after →
          ClosedIn ((Chain.new "airfoil").afterAll edgeCalls) (declarations before) st) ∧
    (∃ e, Executor.generate ((Chain.new "airfoil").afterAll edgeCalls)
        { edgeSettings with timing := true } ["flux();", "border();"] = .ok e ∧
      Stmt.ScopedAll Executor.ambient (Executor.programOf ((Chain.new "airfoil").afterAll edgeCalls)
        { edgeSettings with timing := true } ["flux();", "border();"])) ∧
    ∃ e, Executor.generateWith ((Chain.new "airfoil").afterAll edgeCalls) edgeSettings
        (fun b => b.iterations) = .ok e ∧
      Stmt.ScopedAll Executor.ambient (Executor.program
        ((Chain.new "airfoil").afterAll edgeCalls).name edgeSettings e.bindings
          fun b => b.iterations) := by
  have hcheck :
      Inspector.check ((Chain.new "airfoil").afterAll edgeCalls) edgeSettings = .ok 1 := by cbv
  have hbindings : Executor.check ((Chain.new "airfoil").afterAll edgeCalls) =
      .ok (Executor.bindings ((Chain.new "airfoil").afterAll edgeCalls)) := by
    have hbuilt : ((Chain.new "airfoil").afterAll edgeCalls).ensureConstructed = .ok () := by cbv
    have hrefs : ((Chain.new "airfoil").afterAll edgeCalls).checkReferences = .ok () := by cbv
    rw [Executor.check, hbuilt, hrefs]
    rfl
  have hcount : ["flux();", "border();"].length =
      (Executor.bindings ((Chain.new "airfoil").afterAll edgeCalls)).length := by
    rw [Executor.length_bindings]
    cbv
  refine ⟨?_, ?_, ?_⟩
  · obtain ⟨e, he, -⟩ := Inspector.generate_of_check hcheck
    obtain ⟨program, body, hprogram, -, hbody, hclosed⟩ :=
      (generate_closed "airfoil" edgeCalls edgeSettings).1 e he
    exact ⟨program, body, hprogram, hbody, hclosed⟩
  · obtain ⟨e, he⟩ : ∃ e, Executor.generate ((Chain.new "airfoil").afterAll edgeCalls)
        { edgeSettings with timing := true } ["flux();", "border();"] = .ok e :=
      Executor.generate_of_check hbindings _ hcount
    exact ⟨e, he, ((generate_closed "airfoil" edgeCalls _).2.1 _ e he).2⟩
  · have he := Executor.generateWith_of_check hbindings edgeSettings fun b => b.iterations
    exact ⟨_, he, ((generate_closed "airfoil" edgeCalls edgeSettings).2.2 _ _ he).2⟩

end SparseTiling
