import SparseTiling.Proofs.Generation.Requirements
import SparseTiling.Proofs.Inspector.Protocol
import SparseTiling.Proofs.Session.History

/-!
# The seed loop of a session

A seed is checked when it is chosen, but only against the loops that are declared by then;
later declarations may leave it out of range. It is checked again when an inspector is
generated, so that no order of calls brings a wrong seed into generated code.

* `Call.seed?`, `Session.givenSeeds`: the seeds that accepted calls have chosen.
* `pinned?_afterAll`: the last of them is the one that the chain holds.
* `RunsFrom`: a function body starts its inspection from a seed.
* `generate_seed`: the seed of a generated inspector, and what is reported where the chosen
  one is out of range.
-/

namespace SparseTiling

open Code (Stmt Expr Occurrence render)

/-! ## Seeds that calls choose -/

namespace Session

/-- The seed that a call chooses, if it does: hints may hold one, and a seed can be chosen on
the chain itself. -/
def Call.seed? : Call → Option Int
  | .configure hints => hints.seedLoop.map Int64.toInt
  | .chain (.chooseSeed seed) => some seed
  | _ => none

/-- The seeds that accepted calls choose, in their order. -/
def givenSeeds (s : Session) (calls : List Call) : List Int :=
  (s.accepted calls).filterMap Call.seed?

/-- The seed that the chain of a session holds. -/
def pinned? (s : Session) : Option Int := s.chain.chosenSeed.map Int.ofNat

variable {s t : Session} {call : Call}

theorem pinned?_configure {hints : Hints} (h : s.configure hints = .ok t) :
    t.pinned? = (hints.seedLoop.map Int64.toInt).or s.pinned? := by
  have happlied := applied_of_configure h
  cases hseed : hints.seedLoop with
  | none =>
    have hchain := happlied.noSeed hseed
    rw [pinned?, hchain]
    rfl
  | some n =>
    obtain ⟨k, hk, hchain⟩ := happlied.seed n hseed
    rw [pinned?, hchain]
    exact congrArg some hk

theorem chosenSeed_apply {c c' : Chain} {call : Chain.Call} (h : c.apply call = .ok c') :
    c'.chosenSeed.map Int.ofNat = (Call.seed? (.chain call)).or (c.chosenSeed.map Int.ofNat) := by
  cases call with
  | chooseSeed seed =>
    obtain ⟨k, hk, h⟩ := bind_eq_ok h
    obtain rfl := Except.ok.inj h
    have hvalue := Chain.checkSeed_eq_ok hk
    exact congrArg some hvalue
  | _ =>
    rw [Chain.eq_write_of_apply h]
    rfl

/-- **One call.** An accepted call that chooses a seed pins it; any other accepted call keeps
the one that is pinned. -/
theorem pinned?_apply (h : s.apply call = .ok t) : t.pinned? = call.seed?.or s.pinned? := by
  cases call with
  | chain call =>
    obtain ⟨c, hc, h⟩ := bind_eq_ok h
    obtain rfl := Except.ok.inj h
    exact chosenSeed_apply hc
  | draft call =>
    rw [eq_write_of_apply h]
    rfl
  | configure hints => exact pinned?_configure h

/-- **All calls.** The chain holds the seed that was given last. -/
theorem pinned?_afterAll (name : String) (draft : Draft) (calls : List Call) :
    ((new name draft).afterAll calls).pinned? =
      ((new name draft).givenSeeds calls).getLast? := by
  have hstep (made : List Call) (s : Session) (call : Call) (t : Session)
      (happly : s.apply call = .ok t)
      (hmade : s.pinned? = (made.filterMap Call.seed?).getLast?) :
      t.pinned? = ((made ++ [call]).filterMap Call.seed?).getLast? := by
    rw [pinned?_apply happly, hmade, List.filterMap_append, List.getLast?_append]
    -- a call gives at most one seed
    cases hseed : call.seed? with
    | none => simp [hseed]
    | some n => simp [hseed]
  have hnew : (new name draft).pinned? = (([] : List Call).filterMap Call.seed?).getLast? := rfl
  exact accepted_induction hstep calls hnew

end Session

/-! ## Seeds in generated code -/

/-- The statements of a function start an inspection from a seed: right before the one call that
runs it, the variable that is handed over is declared with that seed as its value. -/
structure Inspector.RunsFrom (seed : Nat) (body : List Stmt) : Prop where
  declared : ∃ before after, body = before ++
    .declare "int" "seedTilePoint" (.int seed) ::
      .expr (.call (.ident "insp_run") [.ident inspVar, .ident "seedTilePoint"]) :: after
  once : ((Stmt.occurrencesAll [] body).filterMap Occurrence.function?).count "insp_run" = 1

variable {c : Chain} {s : Settings}

theorem Inspector.runsFrom_body (seed : Nat) : RunsFrom seed (body c s seed) where
  declared := by
    refine ⟨chainSection c ++ .blank :: (meshSection c s ++ .blank :: (partSection c ++ .blank ::
      (initStmts c s ++ .blank :: (loopStmts c ++ [.blank])))),
      .blank :: (reportStmts s ++ finishStmts), ?_⟩
    simp [body_eq, runStmts, Library.inspRun, Expr.callName]
  once := (followsProtocol_body seed).once "insp_run" (by simp)

/-- The seed of a generated inspector is one of the loops: the chosen one, or the middle one. -/
theorem Inspector.seed_of_generate {e : Emission} (h : generate c s = .ok e) :
    e.seed < c.loops.length ∧ e.seed = c.chosenSeed.getD (c.loops.length / 2) := by
  obtain ⟨seed, hcheck, he⟩ := bind_eq_ok h
  obtain rfl := Except.ok.inj he
  have hseed := (check_eq_ok hcheck).2.2
  unfold Chain.seed at hseed
  dsimp only at hseed
  split at hseed
  · next hlt =>
    obtain rfl := Except.ok.inj hseed
    exact ⟨hlt, rfl⟩
  · cases hseed

/-- Where nothing else is missing, a seed out of range is what is reported. -/
theorem Inspector.generate_of_seed_out {k : Nat} (hbuilt : c.sets ≠ [] ∧ c.loops ≠ [])
    (hrefs : c.Resolved) (hfield : ∀ f, s.coordinates = some f → f.set ∈ c.sets.map (·.name))
    (hk : c.chosenSeed = some k) (hout : c.loops.length ≤ k) :
    generate c s = .error (.seedLoop k c.loops.length) := by
  have hchain : ∀ r ∈ c.requirements, r.met := Chain.requirements_met.2 ⟨hbuilt, hrefs⟩
  have hcoordinates : ∀ r ∈ s.coordinates.toList.map fun f =>
      (⟨f.set ∈ c.sets.map (·.name), .unknownCoordinateSet c.name f.set⟩ : Requirement),
      r.met := by
    rw [List.forall_mem_map]
    intro f hf
    exact hfield f (Option.mem_toList.1 hf)
  rw [(decides_generate c s).error_iff]
  refine Requirement.Reports.after (Requirement.Reports.after ?_ hcoordinates) hchain
  have hnot : ¬ k < c.loops.length := Nat.not_lt.2 hout
  rw [hk]
  exact .here hnot

/-- **No order of calls lets a wrong seed into generated code.** Take any calls on a new session,
refused ones among them.

The seed that its chain then holds is the one that an accepted call gave last. If an inspector
is generated, its seed is one of the loops that are declared by then, it is the seed that was
given last, or the middle loop where none was given, and the generated code starts its inspection
from it. If instead the seed that the chain holds is not one of the loops, and nothing else is
missing, the request is refused, as out of range and with that seed. -/
theorem Session.generate_seed (name : String) (draft : Draft) (calls : List Call) :
    let s := (new name draft).afterAll calls
    let given := (new name draft).givenSeeds calls
    s.chain.chosenSeed.map Int.ofNat = given.getLast? ∧
    (∀ e, Inspector.generate s.chain s.settings = .ok e →
      e.seed < s.chain.loops.length ∧
      (e.seed : Int) = given.getLast?.getD (s.chain.loops.length / 2 : Nat) ∧
      ∃ program body, Inspector.programOf s.chain s.settings = .ok program ∧
        e.source = render program ∧ Inspector.bodyOf program = some body ∧
        Inspector.RunsFrom e.seed body) ∧
    ∀ k, s.chain.chosenSeed = some k → s.chain.loops.length ≤ k →
      s.chain.sets ≠ [] ∧ s.chain.loops ≠ [] → s.chain.Resolved →
      (∀ f, s.settings.coordinates = some f → f.set ∈ s.chain.sets.map (·.name)) →
      ∃ error, Inspector.generate s.chain s.settings = .error error ∧
        ∃ message, error.report = .range .seedLoop k message := by
  intro s given
  have hpinned : s.chain.chosenSeed.map Int.ofNat = given.getLast? :=
    pinned?_afterAll name draft calls
  refine ⟨hpinned, fun e h => ?_, fun k hk hout hbuilt hrefs hfield => ?_⟩
  · obtain ⟨hlt, hseed⟩ := Inspector.seed_of_generate h
    obtain ⟨seed, hcheck, he⟩ := bind_eq_ok h
    obtain rfl := Except.ok.inj he
    refine ⟨hlt, ?_, Inspector.program _ _ seed, _, Inspector.programOf_of_check hcheck, rfl,
      Inspector.bodyOf_program seed, Inspector.runsFrom_body seed⟩
    rw [← hpinned, hseed]
    cases s.chain.chosenSeed <;> rfl
  · refine ⟨_, Inspector.generate_of_seed_out hbuilt hrefs hfield hk hout, _, rfl⟩

/-- A seed is chosen before there are loops, another one is refused, and then the loops are
declared. -/
def Session.seedCalls (loops : Nat) : List Call :=
  [.configure { seedLoop := some 2 }, .chain (.declareSets [{ name := "cells", core := 8 }]),
    .configure { seedLoop := some (-1) },
    .chain (.declareLoops (List.replicate loops ⟨"relax", "cells", [.direct .read]⟩))]

/-- With three loops the third one is the seed; with two the seed is out of range. -/
theorem Session.generate_seed_relax :
    (∃ e, Inspector.generate ((new "jacobi").afterAll (seedCalls 3)).chain
        ((new "jacobi").afterAll (seedCalls 3)).settings = .ok e ∧ e.seed < 3 ∧
        (e.seed : Int) = 2) ∧
      ∃ error, Inspector.generate ((new "jacobi").afterAll (seedCalls 2)).chain
        ((new "jacobi").afterAll (seedCalls 2)).settings = .error error ∧
        ∃ message, error.report = .range .seedLoop 2 message := by
  constructor
  · obtain ⟨-, hok, -⟩ := generate_seed "jacobi" {} (seedCalls 3)
    have hcheck : Inspector.check ((new "jacobi").afterAll (seedCalls 3)).chain
        ((new "jacobi").afterAll (seedCalls 3)).settings = .ok 2 := by cbv
    obtain ⟨e, he, -⟩ := Inspector.generate_of_check hcheck
    obtain ⟨hlt, hseed, -⟩ := hok e he
    have hloops : ((new "jacobi").afterAll (seedCalls 3)).chain.loops.length = 3 := by cbv
    have hgiven : ((new "jacobi").givenSeeds (seedCalls 3)).getLast? = some 2 := by cbv
    rw [hloops] at hlt
    rw [hgiven] at hseed
    exact ⟨e, he, hlt, hseed⟩
  · obtain ⟨-, -, hout⟩ := generate_seed "jacobi" {} (seedCalls 2)
    have hrefs : ((new "jacobi").afterAll (seedCalls 2)).chain.checkReferences = .ok () := by cbv
    have hnone : ((new "jacobi").afterAll (seedCalls 2)).settings.coordinates = none := by cbv
    refine hout 2 (by cbv) (by cbv) ?_ (Chain.checkReferences_eq_ok.1 hrefs) ?_
    · rw [← Chain.isConstructed_iff]
      cbv
    · intro f hf
      rw [hnone] at hf
      cases hf

end SparseTiling
