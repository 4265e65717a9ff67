import SparseTiling.Proofs.Nesting.Cycle

/-!
# Nesting without cycles

The search reports a cycle exactly when there is one: if every set lies below a set
without superset, no set is its own superset and every set is left before its superset.

* `Rises`: positions can be numbered so that there is no cycle.
* `search_eq_ok`: the search comes to its end, and nothing precedes its superset.
* `sortPositions_isOk`: an order is found exactly when every position has a depth.
* `orderSets_of_links`: the same of a list of sets.
-/

namespace SparseTiling.Nesting

variable {sets : List MeshSet} {up : List (Option Nat)} {depth : Nat → Nat}
variable {fresh stack done order : List Nat}

/-- Positions are numbered so that numbers rise from supersets to subsets. -/
def Rises (up : List (Option Nat)) (depth : Nat → Nat) : Prop :=
  ∀ i p, parent up i = some p → depth p < depth i

theorem Rises.lt (h : Rises up depth) {i p : Nat} (hb : Below up i p) : depth p < depth i := by
  induction hb with
  | single hp => exact h _ _ hp
  | tail _ hp ih => exact Nat.lt_trans (h _ _ hp) ih

/-- **Without a cycle the search comes to its end,** and in the order in which it left the
positions, the last one first, nothing precedes its superset. -/
theorem search_eq_ok (hrises : Rises up depth) (h : Searching up fresh stack done)
    (hlt : ∀ i ∈ stack, i < up.length) :
    ∃ order, search up fresh stack done = .ok order ∧
      order.Pairwise fun a b => parent up a ≠ some b := by
  cases hsearch : search up fresh stack done with
  | error i =>
    have hself := hrises i i (parent_of_search_error hsearch)
    exact absurd hself (Nat.lt_irrefl _)
  | ok order =>
    refine ⟨order, rfl, (search_sorted h hlt hsearch).imp fun {a b} hcycle hp => ?_⟩
    exact absurd (hrises.lt (hcycle hp)) (Nat.lt_irrefl _)

/-! ## Orders and cycles -/

/-- An order in which supersets come first passes the test. -/
theorem misplaced_of_first {seen : List Nat}
    (h : ∀ before i after, order = before ++ i :: after → ∀ p, parent up i = some p →
      p ∈ seen ∨ p ∈ before) : misplaced up seen order = none := by
  induction order generalizing seen with
  | nil => rfl
  | cons i rest ih =>
    have hrest : misplaced up (i :: seen) rest = none := by
      refine ih fun before k after he p hp => ?_
      rcases h (i :: before) k after (by rw [he]; rfl) p hp with hp | hp
      · exact .inl (List.mem_cons_of_mem i hp)
      · rcases List.mem_cons.1 hp with rfl | hp
        · exact .inl List.mem_cons_self
        · exact .inr hp
    unfold misplaced
    cases hp : parent up i with
    | none => exact hrest
    | some p =>
      have hseen : p ∈ seen := by simpa using h [] i rest rfl p hp
      simpa [hseen] using hrest

theorem sortPositions_of_rises (hup : links sets = .ok up) (hrises : Rises up depth) :
    ∃ order, sortPositions up = .ok order := by
  obtain ⟨order, horder, hsorted⟩ :=
    search_eq_ok hrises (searching_start up) fun i hi => List.mem_range.1 hi
  have hfinish : finishOrder up = .ok order := horder
  have hpass : misplaced up [] order = none := by
    refine misplaced_of_first fun before i after he p hp => .inr ?_
    have hlt : p < up.length := by
      rw [length_links hup]
      exact (link_lt_length ((parent_eq_some_iff hup).1 hp)).2
    have hmem : p ∈ before ++ i :: after :=
      he ▸ (finishOrder_perm hfinish).mem_iff.2 (List.mem_range.2 hlt)
    -- the superset is somewhere in the order, but neither behind the set nor the set itself
    rcases List.mem_append.1 hmem with hmem | hmem
    · exact hmem
    · rcases List.mem_cons.1 hmem with rfl | hmem
      · exact absurd (hrises p p hp) (Nat.lt_irrefl _)
      · rw [he] at hsorted
        have hafter := (List.pairwise_cons.1 (List.pairwise_append.1 hsorted).2.1).1 p hmem
        exact absurd hp hafter
  exact ⟨order, by simp [sortPositions, hfinish, hpass, bind, Except.bind, pure, Except.pure]⟩

/-- A set is founded if the links above it lead to a set without superset. -/
def Founded (sets : List MeshSet) (i : Nat) : Prop := ∃ d, Depth sets i d

/-- **An order is found exactly when every set is founded.** -/
theorem sortPositions_isOk (hup : links sets = .ok up) :
    (∃ order, sortPositions up = .ok order) ↔ ∀ i < sets.length, Founded sets i := by
  constructor
  · rintro ⟨order, horder⟩ i hi
    exact ⟨_, depths_spec hup horder i hi⟩
  · intro h
    have hdepth : ∀ i, ∃ d, i < sets.length → Depth sets i d := fun i => by
      by_cases hi : i < sets.length
      · obtain ⟨d, hd⟩ := h i hi
        exact ⟨d, fun _ => hd⟩
      · exact ⟨0, fun hlt => absurd hlt hi⟩
    -- depths that are well defined rise along the links, which is all the search needs
    choose depth hdepth using hdepth
    have hrises : Rises up depth := fun i p hp => by
      have hlink := (parent_eq_some_iff hup).1 hp
      obtain ⟨hi, hp⟩ := link_lt_length hlink
      have hstep := depth_unique (hdepth i hi) (.inside hlink (hdepth p hp))
      omega
    exact sortPositions_of_rises hup hrises

/-- Once all supersets are known, the sets are ordered or a cycle is reported, which of
them depends on whether they are founded. -/
theorem orderSets_of_links (hup : links sets = .ok up) :
    ((∀ i < sets.length, Founded sets i) → ∃ result, orderSets sets = .ok result) ∧
      ((∃ i < sets.length, ¬Founded sets i) →
        ∃ name, orderSets sets = .error (.supersetCycle name)) := by
  have hok := sortPositions_isOk hup
  cases hsort : sortPositions up with
  | error i =>
    refine ⟨fun h => ?_, fun _ => ⟨nameAt sets i, ?_⟩⟩
    · obtain ⟨order, horder⟩ := hok.2 h
      simp [hsort] at horder
    · simp [orderSets, hup, hsort, bind, Except.bind, throw, throwThe, MonadExceptOf.throw]
  | ok order =>
    constructor
    · intro _
      simp [orderSets, hup, hsort, bind, Except.bind, pure, Except.pure]
    · rintro ⟨i, hi, hf⟩
      exact absurd (hok.1 ⟨order, hsort⟩ i hi) hf

end SparseTiling.Nesting
