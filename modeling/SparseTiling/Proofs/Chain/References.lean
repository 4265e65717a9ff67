import SparseTiling.Proofs.Chain.Reached

/-!
# Names that refer to something

What generation checks of the names of a chain, as a property of the chain.

* `Resolved`: sets, maps and loops refer to declared ones only.
* `checkReferences_eq_ok`: the check passes exactly then.
-/

namespace SparseTiling.Chain

variable {c : Chain}

/-- Every name in the maps and loops refers to something declared. -/
structure Resolved (c : Chain) : Prop where
  maps : ∀ m ∈ c.maps, c.hasSet m.source = true ∧ c.hasSet m.target = true
  loops : ∀ l ∈ c.loops, c.hasSet l.set = true
  accesses : ∀ l ∈ c.loops, ∀ d ∈ l.descriptors, ∀ n, d.map = .map n → n ∈ c.maps.map (·.name)

theorem checkMap_eq_ok {m : MeshMap} :
    c.checkMap m = .ok () ↔ c.hasSet m.source = true ∧ c.hasSet m.target = true := by
  unfold checkMap
  by_cases hs : c.hasSet m.source = true <;> by_cases ht : c.hasSet m.target = true <;>
    simp [hs, ht, bind, Except.bind, pure, Except.pure, throw, throwThe, MonadExceptOf.throw]

theorem findMap?_isSome {n : String} : (c.findMap? n).isSome = true ↔ n ∈ c.maps.map (·.name) := by
  simp [findMap?, List.find?_isSome]

theorem checkDescriptor_eq_ok {loop : String} {d : Descriptor} :
    c.checkDescriptor loop d = .ok () ↔ ∀ n, d.map = .map n → n ∈ c.maps.map (·.name) := by
  unfold checkDescriptor
  cases hd : d.map with
  | direct => simp
  | map name =>
    have hname : (∀ n, MapRef.map name = .map n → n ∈ c.maps.map (·.name)) ↔
        (c.findMap? name).isSome = true := by
      rw [findMap?_isSome]
      exact ⟨fun h => h name rfl, fun h n he => MapRef.map.inj he ▸ h⟩
    rw [hname]
    by_cases hs : (c.findMap? name).isSome = true <;> simp [hs]

theorem checkLoop_eq_ok {l : Loop} {i : Nat} :
    c.checkLoop l i = .ok () ↔
      c.hasSet l.set = true ∧
        ∀ d ∈ l.descriptors, ∀ n, d.map = .map n → n ∈ c.maps.map (·.name) := by
  have hall : (l.descriptors.forM (c.checkDescriptor (l.runtimeName i)) = .ok ()) ↔
      ∀ d ∈ l.descriptors, ∀ n, d.map = .map n → n ∈ c.maps.map (·.name) := by
    rw [forM_eq_ok]
    exact forall₂_congr fun d _ => checkDescriptor_eq_ok
  rw [← hall]
  unfold checkLoop
  by_cases hs : c.hasSet l.set = true <;>
    simp [hs, bind, Except.bind, throw, throwThe, MonadExceptOf.throw]

/-- **The check of references passes exactly when every name refers to something.** -/
theorem checkReferences_eq_ok : c.checkReferences = .ok () ↔ c.Resolved := by
  have hmaps : c.maps.forM c.checkMap = .ok () ↔
      ∀ m ∈ c.maps, c.hasSet m.source = true ∧ c.hasSet m.target = true := by
    rw [forM_eq_ok]
    exact forall₂_congr fun m _ => checkMap_eq_ok
  have hloops : (c.loops.zipIdx.forM fun a => c.checkLoop a.1 a.2) = .ok () ↔
      ∀ l ∈ c.loops, c.hasSet l.set = true ∧
        ∀ d ∈ l.descriptors, ∀ n, d.map = .map n → n ∈ c.maps.map (·.name) := by
    rw [forM_eq_ok]
    constructor
    · intro h l hl
      obtain ⟨i, hi⟩ := List.getElem?_of_mem hl
      exact checkLoop_eq_ok.1 (h (l, i) (List.mk_mem_zipIdx_iff_getElem?.2 hi))
    · rintro h ⟨l, i⟩ hl
      exact checkLoop_eq_ok.2 (h l (List.mem_of_getElem? (List.mk_mem_zipIdx_iff_getElem?.1 hl)))
  unfold checkReferences
  constructor
  · intro h
    obtain ⟨⟨⟩, hm, hl⟩ := bind_eq_ok h
    have hl := hloops.1 hl
    exact ⟨hmaps.1 hm, fun l h => (hl l h).1, fun l h => (hl l h).2⟩
  · intro h
    have hm := hmaps.2 h.maps
    have hl := hloops.2 fun l hl => ⟨h.loops l hl, h.accesses l hl⟩
    rw [hm]
    exact hl

end SparseTiling.Chain
