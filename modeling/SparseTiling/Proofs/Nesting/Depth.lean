import SparseTiling.Proofs.Nesting.Search

/-!
# Sets by depth of nesting

`orderSets` fills a table of depths while it walks along the order of the search,
and then sorts by it. The entry of a set is right when it is written, because that of
its superset was written before, and it is written only once.

* `Depth`: the number of superset links above a set, said without the search.
* `depths_spec`: the table holds the depth of every position.
* `pairwise_mergeSort_key`: sorting positions by a key keeps ties in their order.
-/

namespace SparseTiling.Nesting

variable {sets result : List MeshSet} {up : List (Option Nat)} {order : List Nat}

/-- The number of links from a position up to a set without superset. -/
inductive Depth (sets : List MeshSet) : Nat → Nat → Prop
  | top {i : Nat} {s : MeshSet} : sets[i]? = some s → s.superset = none → Depth sets i 0
  | inside {i p d : Nat} : Link sets i p → Depth sets p d → Depth sets i (d + 1)

/-- A set has at most one depth. -/
theorem depth_unique {i d e : Nat} (hd : Depth sets i d) (he : Depth sets i e) : d = e := by
  induction hd generalizing e with
  | top hs hn =>
    cases he with
    | top => rfl
    | inside hl _ => exact absurd hn (link_superset_ne_none hs hl)
  | inside hl _ ih =>
    cases he with
    | top hs hn => exact absurd hn (link_superset_ne_none hs hl)
    | inside hl' hd' =>
      obtain rfl := link_unique hl hl'
      rw [ih hd']

/-! ## The table of depths -/

/-- One entry of the table. -/
def depthStep (up : List (Option Nat)) (depth : List Nat) (i : Nat) : List Nat :=
  depth.set i (match parent up i with
    | some p => depth[p]?.getD 0 + 1
    | none => 0)

/-- Entries of positions that are still to come do not matter, and those of positions
that are done are not touched again. -/
theorem depthStep_getElem?_ne {depth : List Nat} {i k : Nat} (h : i ≠ k) :
    (depthStep up depth i)[k]? = depth[k]? := by
  rw [depthStep, List.getElem?_set_ne h]

theorem depthStep_getElem?_self {depth : List Nat} {i : Nat} (h : i < depth.length) :
    (depthStep up depth i)[i]? = some (match parent up i with
      | some p => depth[p]?.getD 0 + 1
      | none => 0) := by
  rw [depthStep, List.getElem?_set_self h]

/-- **The table is filled from above.** If the entries of the positions walked so far
are right, so are those of all positions at the end of the walk. -/
theorem foldl_depthStep_spec (hup : links sets = .ok up) (walked depth : List Nat)
    (hlen : depth.length = up.length) (hlt : ∀ i ∈ order, i < up.length)
    (hnodup : (walked ++ order).Nodup)
    (hfirst : ∀ before i after, order = before ++ i :: after → ∀ p, parent up i = some p →
      p ∈ walked ∨ p ∈ before)
    (hdepth : ∀ i ∈ walked, Depth sets i (depth[i]?.getD 0)) :
    ∀ i ∈ walked ++ order, Depth sets i ((order.foldl (depthStep up) depth)[i]?.getD 0) := by
  induction order generalizing walked depth with
  | nil => simpa using hdepth
  | cons k rest ih =>
    have hk : k < up.length := hlt k List.mem_cons_self
    have hkw : k ∉ walked := fun h => (List.nodup_append.1 hnodup).2.2 k h k List.mem_cons_self rfl
    rw [List.foldl_cons, show walked ++ k :: rest = (walked ++ [k]) ++ rest by simp]
    apply ih
    · rw [depthStep, List.length_set, hlen]
    · exact fun i hi => hlt i (List.mem_cons_of_mem k hi)
    · simpa using hnodup
    · intro before i after he p hp
      rcases hfirst (k :: before) i after (by simp [he]) p hp with h | h
      · exact .inl (List.mem_append_left _ h)
      · rcases List.mem_cons.1 h with rfl | h
        · exact .inl (by simp)
        · exact .inr h
    · intro i hi
      rcases List.mem_append.1 hi with hi | hi
      · have hik : k ≠ i := fun h => hkw (h ▸ hi)
        rw [depthStep_getElem?_ne hik]
        exact hdepth i hi
      · -- the new entry: the superset, if there is one, was walked before
        obtain rfl : i = k := by simpa using hi
        rw [depthStep_getElem?_self (by omega)]
        have hset : ∃ s, sets[i]? = some s := by
          rw [length_links hup] at hk
          exact ⟨sets[i], List.getElem?_eq_getElem hk⟩
        obtain ⟨s, hs⟩ := hset
        cases hp : parent up i with
        | none => exact .top hs ((parent_eq_none_iff hup hs).1 hp)
        | some p =>
          have hpw : p ∈ walked := by
            rcases hfirst [] i rest rfl p hp with h | h
            · exact h
            · simp at h
          exact .inside ((parent_eq_some_iff hup).1 hp) (hdepth p hpw)

theorem sortPositions_eq_ok (h : sortPositions up = .ok order) :
    finishOrder up = .ok order ∧ misplaced up [] order = none := by
  unfold sortPositions at h
  cases hf : finishOrder up with
  | error i => simp [hf, bind, Except.bind] at h
  | ok found =>
    cases hm : misplaced up [] found with
    | some p => simp [hf, hm, bind, Except.bind, throw, throwThe, MonadExceptOf.throw] at h
    | none =>
      obtain rfl : found = order := by simpa [hf, hm, bind, Except.bind, pure, Except.pure] using h
      exact ⟨rfl, hm⟩

/-- **The table holds the depth of every position.** -/
theorem depths_spec (hup : links sets = .ok up) (horder : sortPositions up = .ok order) :
    ∀ i < sets.length, Depth sets i ((depths up order)[i]?.getD 0) := by
  obtain ⟨hfin, hmis⟩ := sortPositions_eq_ok horder
  have hperm := finishOrder_perm hfin
  have hmem : ∀ i, i ∈ order ↔ i < up.length := fun i => by rw [hperm.mem_iff, List.mem_range]
  intro i hi
  have hall := foldl_depthStep_spec hup [] (List.replicate up.length 0) List.length_replicate
    (fun i hi => (hmem i).1 hi) (by simpa using hperm.nodup_iff.2 List.nodup_range)
    (fun before i after he p hp => (misplaced_eq_none hmis before i after he p hp).imp_left (by simp))
    (by simp)
  rw [← length_links hup] at hi
  exact hall i (by simpa using (hmem i).2 hi)

/-! ## Sorting positions by a key -/

/-- **Sorting by a key keeps ties in their order.** -/
theorem pairwise_mergeSort_key (key : Nat → Nat) (n : Nat) :
    ((List.range n).mergeSort fun i j => key i ≤ key j).Pairwise
      fun i j => key i < key j ∨ key i = key j ∧ i < j := by
  set le : Nat → Nat → Bool := fun i j => key i ≤ key j with hle
  have hnodup : ((List.range n).mergeSort le).Nodup :=
    (List.mergeSort_perm _ _).nodup_iff.2 List.nodup_range
  -- core states stability by numbering the list, and a range is numbered by itself
  have hself : ∀ a ∈ (List.range n).zipIdx, a.2 = a.1 := by
    rintro ⟨i, j⟩ h
    have := List.mem_zipIdx h
    simp only [Nat.zero_add, List.length_range, Nat.sub_zero, List.getElem_range] at this
    exact this.2.2.symm
  have htrans : ∀ i j k, le i j = true → le j k = true → le i k = true := by
    simp only [hle, decide_eq_true_eq]; omega
  have htotal : ∀ i j, (le i j || le j i) = true := by
    simp only [hle, Bool.or_eq_true, decide_eq_true_eq]; omega
  have hsorted := List.pairwise_mergeSort (List.zipIdxLE_trans htrans) (List.zipIdxLE_total htotal)
    (List.range n).zipIdx
  have hlex : ((List.range n).mergeSort le).Pairwise
      fun i j => key i < key j ∨ key i = key j ∧ i ≤ j := by
    rw [← List.mergeSort_zipIdx, List.pairwise_map]
    refine hsorted.imp_of_mem ?_
    intro a b ha hb hab
    have ha' := hself a (List.mem_mergeSort.1 ha)
    have hb' := hself b (List.mem_mergeSort.1 hb)
    simp only [List.zipIdxLE, hle, decide_eq_true_eq, ha', hb'] at hab
    split at hab
    · split at hab
      · exact .inr ⟨by omega, by simpa using hab⟩
      · exact .inl (by omega)
    · simp at hab
  refine (hlex.and hnodup).imp ?_
  rintro i j ⟨h, hne⟩
  omega

end SparseTiling.Nesting
