import SparseTiling.Executor
import SparseTiling.Inspector
import SparseTiling.Proofs.Chain.References

/-!
# What generation asks for

Both emitters look at a chain before they write anything. What they ask for is a list of
requirements, each with an error; an emitter succeeds when all of them are met, and
otherwise reports the first that is not.

* `Requirement`, `Requirement.Reports`: something asked for, and the first that is missing.
* `Requirement.Decides`: an outcome that goes by a list of requirements, with one rule for
  each way in which checks are put together.
* `Chain.requirements`, `Inspector.requirements`, `Executor.requirements`: the lists.
* `generate_verdict`: when generation succeeds and what it reports otherwise.
-/

namespace SparseTiling

/-! ## Requirements -/

/-- Something that is asked for, and the error where it is missing. -/
structure Requirement where
  met : Prop
  error : Error

namespace Requirement

/-- The error of the first requirement that is not met. -/
inductive Reports : List Requirement → Error → Prop
  | here {r : Requirement} {rs : List Requirement} : ¬ r.met → Reports (r :: rs) r.error
  | there {r : Requirement} {rs : List Requirement} {e : Error} :
    r.met → Reports rs e → Reports (r :: rs) e

/-- An outcome goes by a list of requirements: it is a success when all are met, and
otherwise the error of the first that is not. -/
def Decides {α : Type} (rs : List Requirement) : Except Error α → Prop
  | .ok _ => ∀ r ∈ rs, r.met
  | .error e => Reports rs e

variable {α β : Type} {rs qs : List Requirement} {e e' : Error} {x : Except Error α}

theorem Reports.not_met (h : Reports rs e) : ¬ ∀ r ∈ rs, r.met := by
  intro hall
  induction h with
  | here hr => exact hr (hall _ List.mem_cons_self)
  | there _ _ ih => exact ih fun r hr => hall r (List.mem_cons_of_mem _ hr)

theorem Reports.unique (h : Reports rs e) (h' : Reports rs e') : e = e' := by
  induction h with
  | here hr =>
    cases h' with
    | here => rfl
    | there hmet _ => exact absurd hmet hr
  | there hmet _ ih =>
    cases h' with
    | here hr => exact absurd hmet hr
    | there _ h' => exact ih h'

theorem Reports.append (h : Reports rs e) (qs : List Requirement) : Reports (rs ++ qs) e := by
  induction h with
  | here hr => exact .here hr
  | there hmet _ ih => exact .there hmet ih

theorem Reports.after (h : Reports qs e) (hrs : ∀ r ∈ rs, r.met) : Reports (rs ++ qs) e := by
  induction rs with
  | nil => exact h
  | cons r rs ih =>
    rw [List.forall_mem_cons] at hrs
    exact .there hrs.1 (ih hrs.2)

theorem Decides.isOk_iff (h : Decides rs x) : (∃ a, x = .ok a) ↔ ∀ r ∈ rs, r.met := by
  cases x with
  | ok a => exact ⟨fun _ => h, fun _ => ⟨a, rfl⟩⟩
  | error e =>
    constructor
    · rintro ⟨a, ha⟩
      cases ha
    · intro hall
      exact absurd hall (Reports.not_met h)

theorem Decides.error_iff (h : Decides rs x) : x = .error e ↔ Reports rs e := by
  cases x with
  | ok a =>
    constructor
    · intro ha
      cases ha
    · intro hr
      exact absurd h hr.not_met
  | error e' =>
    constructor
    · intro he
      obtain rfl := Except.error.inj he
      exact h
    · intro hr
      rw [Reports.unique h hr]

/-! ## Checks put together -/

theorem decides_ok (a : α) : Decides [] (.ok a : Except Error α) := by
  simp [Decides]

/-- A test, and what follows where it is passed. -/
theorem decides_guard {p q : Prop} [Decidable q] (h : q ↔ p) (hx : Decides rs x) :
    Decides (⟨p, e⟩ :: rs) (if q then x else .error e) := by
  by_cases hq : q
  · rw [if_pos hq]
    have hp : ∀ r ∈ [(⟨p, e⟩ : Requirement)], r.met := by simpa using h.1 hq
    cases x with
    | ok a => exact List.forall_mem_append.2 ⟨hp, hx⟩
    | error e' => exact Reports.after hx hp
  · rw [if_neg hq]
    exact .here fun hp => hq (h.2 hp)

/-- One check after another. -/
theorem Decides.bind {f : α → Except Error β} (h : Decides rs x)
    (hf : ∀ a, x = .ok a → Decides qs (f a)) : Decides (rs ++ qs) (x >>= f) := by
  cases x with
  | error e => exact Reports.append h qs
  | ok a =>
    have hfa := hf a rfl
    change Decides (rs ++ qs) (f a)
    cases hres : f a with
    | error e =>
      rw [hres] at hfa
      exact Reports.after hfa h
    | ok b =>
      rw [hres] at hfa
      exact List.forall_mem_append.2 ⟨h, hfa⟩

/-- What is made of the result of a check asks for nothing more. -/
theorem Decides.map (h : Decides rs x) (g : α → β) : Decides rs (do return g (← x)) := by
  have hg : Decides (rs ++ []) (do return g (← x)) := h.bind fun a _ => decides_ok (g a)
  rwa [List.append_nil] at hg

/-- The same check for all items of a list, in its order. -/
theorem decides_forM {f : α → Except Error Unit} {asked : α → List Requirement} {xs : List α}
    (h : ∀ a ∈ xs, Decides (asked a) (f a)) : Decides (xs.flatMap asked) (xs.forM f) := by
  induction xs with
  | nil => exact decides_ok ()
  | cons a xs ih =>
    rw [List.forall_mem_cons] at h
    rw [List.flatMap_cons]
    unfold List.forM
    exact h.1.bind fun _ _ => ih h.2

end Requirement

open Requirement

/-! ## Chains -/

namespace Chain

variable {c : Chain}

theorem hasSet_iff {name : String} : c.hasSet name = true ↔ name ∈ c.sets.map (·.name) := by
  simp [hasSet]

theorem isConstructed_iff : c.isConstructed = true ↔ c.sets ≠ [] ∧ c.loops ≠ [] := by
  simp [isConstructed]

/-- The source of a map, then its target. -/
def mapRequirements (c : Chain) (m : MeshMap) : List Requirement :=
  [⟨m.source ∈ c.sets.map (·.name), .unknownMapSet m.name m.source⟩,
    ⟨m.target ∈ c.sets.map (·.name), .unknownMapSet m.name m.target⟩]

/-- The map of a descriptor, unless it is direct. -/
def accessRequirements (c : Chain) (loop : String) (d : Descriptor) : List Requirement :=
  d.map.mapName?.toList.map fun n => ⟨n ∈ c.maps.map (·.name), .unknownLoopMap loop n⟩

/-- The iteration set of a loop, then the maps of its descriptors in their order. -/
def loopRequirements (c : Chain) (l : Loop) (position : Nat) : List Requirement :=
  ⟨l.set ∈ c.sets.map (·.name), .unknownLoopSet (l.runtimeName position) l.set⟩ ::
    l.descriptors.flatMap (c.accessRequirements (l.runtimeName position))

/-- All references of a chain: those of its maps, then those of its loops. -/
def referenceRequirements (c : Chain) : List Requirement :=
  c.maps.flatMap c.mapRequirements ++
    c.loops.zipIdx.flatMap fun entry => c.loopRequirements entry.1 entry.2

/-- **What both emitters ask of a chain:** that there are sets and loops, and then that
every name refers to something. -/
def requirements (c : Chain) : List Requirement :=
  ⟨c.sets ≠ [] ∧ c.loops ≠ [], .notConstructed c.name⟩ :: c.referenceRequirements

theorem decides_ensureConstructed (c : Chain) :
    Decides [⟨c.sets ≠ [] ∧ c.loops ≠ [], .notConstructed c.name⟩] c.ensureConstructed :=
  decides_guard isConstructed_iff (decides_ok ())

theorem decides_checkMap (m : MeshMap) : Decides (c.mapRequirements m) (c.checkMap m) := by
  have htarget : Decides [⟨m.target ∈ c.sets.map (·.name), .unknownMapSet m.name m.target⟩]
      (if c.hasSet m.target = true then .ok () else .error (.unknownMapSet m.name m.target)) :=
    decides_guard hasSet_iff (decides_ok ())
  exact decides_guard hasSet_iff htarget

theorem decides_checkDescriptor (loop : String) (d : Descriptor) :
    Decides (c.accessRequirements loop d) (c.checkDescriptor loop d) := by
  unfold accessRequirements checkDescriptor
  cases d.map with
  | direct => exact decides_ok ()
  | map name => exact decides_guard findMap?_isSome (decides_ok ())

theorem decides_checkLoop (l : Loop) (position : Nat) :
    Decides (c.loopRequirements l position) (c.checkLoop l position) := by
  have hmaps : Decides (l.descriptors.flatMap (c.accessRequirements (l.runtimeName position)))
      (l.descriptors.forM (c.checkDescriptor (l.runtimeName position))) :=
    decides_forM fun d _ => decides_checkDescriptor _ d
  exact decides_guard hasSet_iff hmaps

theorem decides_checkReferences (c : Chain) :
    Decides c.referenceRequirements c.checkReferences := by
  have hmaps : Decides (c.maps.flatMap c.mapRequirements) (c.maps.forM c.checkMap) :=
    decides_forM fun m _ => decides_checkMap m
  exact hmaps.bind fun _ _ => decides_forM fun entry _ => decides_checkLoop entry.1 entry.2

theorem referenceRequirements_met :
    (∀ r ∈ c.referenceRequirements, r.met) ↔ c.Resolved := by
  rw [← checkReferences_eq_ok, ← c.decides_checkReferences.isOk_iff]
  exact ⟨by rintro ⟨⟨⟩, h⟩; exact h, fun h => ⟨(), h⟩⟩

theorem requirements_met :
    (∀ r ∈ c.requirements, r.met) ↔ (c.sets ≠ [] ∧ c.loops ≠ []) ∧ c.Resolved := by
  rw [requirements, List.forall_mem_cons, referenceRequirements_met]

end Chain

/-! ## Emitters -/

variable {c : Chain} {s : Settings} {kernels : List String}

/-- **What an inspector asks for:** what every emitter does, then the set of the coordinate
field if there is one, and last a seed loop that exists. -/
def Inspector.requirements (c : Chain) (s : Settings) : List Requirement :=
  c.requirements ++
    ((s.coordinates.toList.map fun f =>
      ⟨f.set ∈ c.sets.map (·.name), .unknownCoordinateSet c.name f.set⟩) ++
    [⟨c.chosenSeed.getD (c.loops.length / 2) < c.loops.length,
      .seedLoop (c.chosenSeed.getD (c.loops.length / 2) : Nat) c.loops.length⟩])

/-- **What an executor asks for:** what every emitter does, then one kernel for each loop. -/
def Executor.requirements (c : Chain) (kernels : List String) : List Requirement :=
  c.requirements ++
    [⟨kernels.length = c.loops.length, .kernelCount c.name c.loops.length kernels.length⟩]

theorem Inspector.decides_checkCoordinates (c : Chain) (s : Settings) :
    Decides (s.coordinates.toList.map fun f =>
        ⟨f.set ∈ c.sets.map (·.name), .unknownCoordinateSet c.name f.set⟩)
      (checkCoordinates c s) := by
  unfold checkCoordinates
  cases s.coordinates with
  | none => exact decides_ok ()
  | some f => exact decides_guard Chain.hasSet_iff (decides_ok ())

theorem Inspector.decides_generate (c : Chain) (s : Settings) :
    Decides (requirements c s) (generate c s) := by
  have hseed : Decides [⟨c.chosenSeed.getD (c.loops.length / 2) < c.loops.length,
      .seedLoop (c.chosenSeed.getD (c.loops.length / 2) : Nat) c.loops.length⟩] c.seed :=
    decides_guard Iff.rfl (decides_ok _)
  have hcheck := c.decides_ensureConstructed.bind fun _ _ =>
    c.decides_checkReferences.bind fun _ _ =>
      (decides_checkCoordinates c s).bind fun _ _ => hseed
  exact hcheck.map _

theorem Executor.decides_generate (c : Chain) (s : Settings) (kernels : List String) :
    Decides (requirements c kernels) (generate c s kernels) := by
  have hcheck : Decides c.requirements (check c) :=
    c.decides_ensureConstructed.bind fun _ _ => c.decides_checkReferences.map fun _ => bindings c
  refine hcheck.bind fun bs hbs => ?_
  have hlength : bs.length = c.loops.length := by
    obtain ⟨-, -, hbs⟩ := bind_eq_ok hbs
    obtain ⟨-, -, hbs⟩ := bind_eq_ok hbs
    obtain rfl := Except.ok.inj hbs
    simp [bindings]
  rw [hlength]
  exact decides_guard Iff.rfl (decides_ok _)

theorem Inspector.requirements_met :
    (∀ r ∈ requirements c s, r.met) ↔
      (c.sets ≠ [] ∧ c.loops ≠ []) ∧ c.Resolved ∧
        (∀ f, s.coordinates = some f → f.set ∈ c.sets.map (·.name)) ∧
        c.chosenSeed.getD (c.loops.length / 2) < c.loops.length := by
  rw [requirements, List.forall_mem_append, List.forall_mem_append, Chain.requirements_met,
    List.forall_mem_map, List.forall_mem_singleton, and_assoc]
  simp only [Option.mem_toList]

theorem Executor.requirements_met :
    (∀ r ∈ requirements c kernels, r.met) ↔
      (c.sets ≠ [] ∧ c.loops ≠ []) ∧ c.Resolved ∧ kernels.length = c.loops.length := by
  rw [requirements, List.forall_mem_append, Chain.requirements_met, List.forall_mem_singleton,
    and_assoc]

/-- Text is written into a string, which cannot fail, so no refusal is a failure to print. -/
theorem Error.report_ne_render (e : Error) : e.report ≠ .render := by
  cases e <;> simp [report]

/-- **When code is generated.** An inspector is generated exactly when there are sets and
loops, every name refers to something, the set of the coordinate field is declared and the
seed is one of the loops; an executor exactly when there are sets and loops, every name
refers to something and there is one kernel for each loop. Otherwise the first requirement
that is not met is reported. It is never a failure to print: code is written into a string, which
cannot fail, and no error at all is reported so. A chain that has an inspector has an executor,
under any settings and for any kernels, one for each loop. -/
theorem generate_verdict (c : Chain) (s : Settings) (kernels : List String) :
    ((∃ e, Inspector.generate c s = .ok e) ↔
      (c.sets ≠ [] ∧ c.loops ≠ []) ∧ c.Resolved ∧
        (∀ f, s.coordinates = some f → f.set ∈ c.sets.map (·.name)) ∧
        c.chosenSeed.getD (c.loops.length / 2) < c.loops.length) ∧
    ((∃ e, Executor.generate c s kernels = .ok e) ↔
      (c.sets ≠ [] ∧ c.loops ≠ []) ∧ c.Resolved ∧ kernels.length = c.loops.length) ∧
    (∀ e, Inspector.generate c s = .error e ↔ Reports (Inspector.requirements c s) e) ∧
    (∀ e, Executor.generate c s kernels = .error e ↔
      Reports (Executor.requirements c kernels) e) ∧
    (∀ e : Error, Inspector.generate c s = .error e ∨ Executor.generate c s kernels = .error e →
      e.report ≠ .render) ∧
    ((∃ e, Inspector.generate c s = .ok e) → ∀ (s' : Settings) (kernels' : List String),
      kernels'.length = c.loops.length → ∃ e, Executor.generate c s' kernels' = .ok e) := by
  have hinspector := Inspector.decides_generate c s
  have hexecutor := Executor.decides_generate c s kernels
  refine ⟨?_, ?_, fun e => hinspector.error_iff, fun e => hexecutor.error_iff,
    fun e _ => e.report_ne_render, fun h s' kernels' hlength => ?_⟩
  · rw [hinspector.isOk_iff, Inspector.requirements_met]
  · rw [hexecutor.isOk_iff, Executor.requirements_met]
  · rw [hinspector.isOk_iff, Inspector.requirements_met] at h
    obtain ⟨hconstructed, hresolved, -, -⟩ := h
    rw [(Executor.decides_generate c s' kernels').isOk_iff, Executor.requirements_met]
    exact ⟨hconstructed, hresolved, hlength⟩

end SparseTiling
