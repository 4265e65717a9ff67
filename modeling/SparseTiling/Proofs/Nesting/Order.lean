import Mathlib
import SparseTiling.Proofs.Nesting.Depth

/-!
# The order of declaration

`orderSets` gives the stable order by depth of nesting, so a set follows its
superset, and sets without superset come first.

* `orderSets_positions`: the order as a stable sort of positions.
* `orderSets_perm`: the same sets, none lost and none twice.
* `orderSets_superset_before`: supersets come first.
* `orderSets_sorted_by_depth`: the order, and what follows from it.
-/

namespace SparseTiling.Nesting

variable {sets result : List MeshSet}

/-- The order as a sort of positions by the table of depths. -/
theorem orderSets_eq_ok (h : orderSets sets = .ok result) :
    ∃ up order, links sets = .ok up ∧ sortPositions up = .ok order ∧
      result.map some = ((List.range sets.length).mergeSort fun i j =>
        (depths up order)[i]?.getD 0 ≤ (depths up order)[j]?.getD 0).map (sets[·]?) := by
  unfold orderSets at h
  cases hup : links sets with
  | error e => simp [hup, bind, Except.bind] at h
  | ok up =>
    cases horder : sortPositions up with
    | error i => simp [hup, horder, bind, Except.bind, throw, throwThe, MonadExceptOf.throw] at h
    | ok order =>
      refine ⟨up, order, rfl, horder, ?_⟩
      set rank : Nat → Nat := fun i => (depths up order)[i]?.getD 0 with hrank
      have hres : result = (sets.zipIdx.mergeSort fun a b => rank a.2 ≤ rank b.2).map (·.1) := by
        simpa [hup, horder, bind, Except.bind, pure, Except.pure, eq_comm] using h
      have hpos : (sets.zipIdx.mergeSort fun a b => rank a.2 ≤ rank b.2).map (·.2) =
          (List.range sets.length).mergeSort fun i j => rank i ≤ rank j := by
        rw [List.map_mergeSort (s := fun i j => decide (rank i ≤ rank j)) (fun a _ b _ => rfl),
          List.zipIdx_map_snd, List.range_eq_range']
      rw [← hpos, hres, List.map_map, List.map_map]
      refine List.map_congr_left ?_
      rintro ⟨s, i⟩ hs
      have hget := List.mk_mem_zipIdx_iff_getElem?.1 (List.mem_mergeSort.1 hs)
      simpa using hget.symm

theorem map_getElem?_range {α : Type} (l : List α) :
    (List.range l.length).map (l[·]?) = l.map some := by
  refine List.ext_getElem (by simp) fun i h₁ h₂ => ?_
  simp only [List.length_map, List.length_range] at h₁
  simp [List.getElem?_eq_getElem h₁]

theorem perm_of_map_some {α : Type} {l l' : List α} (h : (l.map some).Perm (l'.map some)) :
    l.Perm l' := by
  have := h.filterMap id
  simpa [List.filterMap_map] using this

/-- Ordering neither loses nor repeats a set. -/
theorem orderSets_perm (h : orderSets sets = .ok result) : result.Perm sets := by
  obtain ⟨up, order, -, -, hres⟩ := orderSets_eq_ok h
  refine perm_of_map_some ?_
  rw [hres, ← map_getElem?_range]
  exact (List.mergeSort_perm _ _).map _

/-- A list in which what has a property comes first is cut in two by it. -/
theorem filter_append_filter_not {α : Type} {p : α → Bool} {l : List α}
    (h : l.Pairwise fun a b => p b = true → p a = true) :
    l = l.filter p ++ l.filter fun a => !p a := by
  induction l with
  | nil => rfl
  | cons a rest ih =>
    obtain ⟨ha, hrest⟩ := List.pairwise_cons.1 h
    by_cases hp : p a = true
    · simp only [List.filter_cons, hp, if_true, Bool.not_true, Bool.false_eq_true, if_false,
        List.cons_append, ← ih hrest]
    · have hnone : rest.filter p = [] := by
        rw [List.filter_eq_nil_iff]
        exact fun b hb hpb => hp (ha b hb hpb)
      have hall : (rest.filter fun b => !p b) = rest := by
        simpa [hnone] using (ih hrest).symm
      simp [hp, hnone, hall]

/-- Positions sorted by a key start with those of key zero, in their order. -/
theorem filter_zero_isPrefix {key : Nat → Nat} {n : Nat} {order : List Nat}
    (hperm : order.Perm (List.range n))
    (hsorted : order.Pairwise fun i j => key i < key j ∨ key i = key j ∧ i < j) :
    (List.range n).filter (fun i => key i = 0) <+: order := by
  have hcut := filter_append_filter_not (p := fun i => decide (key i = 0)) (hsorted.imp
    fun {i j} h => by simp only [decide_eq_true_eq]; omega)
  have htop : order.filter (fun i => key i = 0) = (List.range n).filter (fun i => key i = 0) := by
    refine (hperm.filter _).eq_of_pairwise (fun i j _ _ (hij : i < j) (hji : j < i) => by omega) ?_ ?_
    · have := hsorted.filter (fun i => decide (key i = 0))
      refine this.imp_of_mem ?_
      intro i j hi hj h
      have hi := (List.mem_filter.1 hi).2
      have hj := (List.mem_filter.1 hj).2
      simp only [decide_eq_true_eq] at hi hj
      omega
    · exact List.pairwise_lt_range.filter _
  rw [hcut, htop]
  exact List.prefix_append _ _

theorem depth_zero_iff {i d : Nat} {s : MeshSet} (hs : sets[i]? = some s) (hd : Depth sets i d) :
    d = 0 ↔ s.superset = none := by
  cases hd with
  | top ht hn =>
    obtain rfl := Option.some.inj (hs.symm.trans ht)
    simpa using hn
  | inside hl _ => exact iff_of_false (by simp) (link_superset_ne_none hs hl)

/-- In an ordered list, what is not behind another element stands in front of it. -/
theorem idxOf_lt_idxOf {r : Nat → Nat → Prop} {l : List Nat} (h : l.Pairwise r) {a b : Nat}
    (ha : a ∈ l) (hb : b ∈ l) (hba : ¬r b a) (hne : a ≠ b) :
    l.idxOf a < l.idxOf b := by
  by_contra hlt
  have hia := List.idxOf_lt_length_iff.2 ha
  have hib := List.idxOf_lt_length_iff.2 hb
  rcases Nat.lt_or_eq_of_le (Nat.le_of_not_lt hlt) with h' | h'
  · have := List.pairwise_iff_getElem.1 h _ _ hib hia h'
    rw [List.getElem_idxOf, List.getElem_idxOf] at this
    exact hba this
  · exact hne ((List.idxOf_inj ha).1 h'.symm)

/-- The positions in the order of declaration, with the depths they are sorted by. -/
theorem orderSets_positions (h : orderSets sets = .ok result) :
    ∃ (depth : Nat → Nat) (order : List Nat),
      (∀ i < sets.length, Depth sets i (depth i)) ∧
      order.Perm (List.range sets.length) ∧
      result.map some = order.map (sets[·]?) ∧
      order.Pairwise (fun i j => depth i < depth j ∨ depth i = depth j ∧ i < j) := by
  obtain ⟨up, walk, hup, hwalk, hres⟩ := orderSets_eq_ok h
  exact ⟨_, _, depths_spec hup hwalk, List.mergeSort_perm _ _, hres, pairwise_mergeSort_key _ _⟩

theorem link_lt_length {i p : Nat} (hl : Link sets i p) : i < sets.length ∧ p < sets.length := by
  obtain ⟨s, name, hs, -, ⟨t, ht, -⟩, -⟩ := hl
  exact ⟨(List.getElem?_eq_some_iff.1 hs).1, (List.getElem?_eq_some_iff.1 ht).1⟩

/-- Sorted by depth, a superset stands in front. -/
theorem idxOf_link_lt {depth : Nat → Nat} {order : List Nat}
    (hdepth : ∀ i < sets.length, Depth sets i (depth i))
    (hperm : order.Perm (List.range sets.length))
    (hsorted : order.Pairwise fun i j => depth i < depth j ∨ depth i = depth j ∧ i < j)
    {i p : Nat} (hl : Link sets i p) : order.idxOf p < order.idxOf i := by
  obtain ⟨hi, hp⟩ := link_lt_length hl
  have hlt : depth i = depth p + 1 := depth_unique (hdepth i hi) (.inside hl (hdepth p hp))
  have hmem : ∀ k < sets.length, k ∈ order := fun k hk => hperm.mem_iff.2 (List.mem_range.2 hk)
  exact idxOf_lt_idxOf hsorted (hmem p hp) (hmem i hi) (by omega) (by rintro rfl; omega)

/-- Every superset is declared in front of its subsets. -/
theorem orderSets_superset_before (h : orderSets sets = .ok result) {i : Nat} {s : MeshSet}
    {name : String} (hs : result[i]? = some s) (hname : s.superset = some name) :
    ∃ j t, j < i ∧ result[j]? = some t ∧ t.name = name := by
  obtain ⟨depth, order, hdepth, hperm, hres, hsorted⟩ := orderSets_positions h
  have hget : ∀ k, (result[k]?).map some = (order[k]?).map (sets[·]?) := fun k => by
    rw [← List.getElem?_map, ← List.getElem?_map, hres]
  obtain ⟨a, ha, hsa⟩ : ∃ a, order[i]? = some a ∧ sets[a]? = some s := by
    have := hget i
    rw [hs, Option.map_some, eq_comm, Option.map_eq_some_iff] at this
    exact this
  -- the name resolves, since the table of links could be made
  obtain ⟨p, hp⟩ : ∃ p, Link sets a p := by
    obtain ⟨up, -, hup, -⟩ := orderSets_eq_ok h
    have hentry := links_entry hup hsa
    rw [hname] at hentry
    obtain ⟨p, hp, -⟩ := hentry
    exact ⟨p, s, name, hsa, hname, hp⟩
  have hlt := idxOf_link_lt hdepth hperm hsorted hp
  have hia : order.idxOf a = i := by
    obtain ⟨hi, rfl⟩ := List.getElem?_eq_some_iff.1 ha
    exact (hperm.nodup_iff.2 List.nodup_range).idxOf_getElem i hi
  obtain ⟨t, ht, htn⟩ : ∃ t, sets[p]? = some t ∧ t.name = name := by
    obtain ⟨s', name', hs', hn', ⟨t, ht, htn⟩, -⟩ := hp
    obtain rfl := Option.some.inj (hsa.symm.trans hs')
    obtain rfl := Option.some.inj (hname.symm.trans hn')
    exact ⟨t, ht, htn⟩
  have hpo : order[order.idxOf p]? = some p := by
    have hmem : p ∈ order := hperm.mem_iff.2 (List.mem_range.2 (link_lt_length hp).2)
    rw [List.getElem?_eq_getElem (List.idxOf_lt_length_iff.2 hmem), List.getElem_idxOf]
  refine ⟨order.idxOf p, t, by omega, ?_, htn⟩
  have := hget (order.idxOf p)
  rw [hpo, Option.map_some, ht, Option.map_eq_some_iff] at this
  obtain ⟨t', ht', he⟩ := this
  rw [ht', Option.some.inj he]

/-- The sets without superset, read off the positions of depth zero. -/
theorem filter_top_isPrefix {depth : Nat → Nat} {order : List Nat}
    (hdepth : ∀ i < sets.length, Depth sets i (depth i))
    (hperm : order.Perm (List.range sets.length)) (hres : result.map some = order.map (sets[·]?))
    (hsorted : order.Pairwise fun i j => depth i < depth j ∨ depth i = depth j ∧ i < j) :
    sets.filter (fun s => s.superset.isNone) <+: result := by
  have htop : ((List.range sets.length).filter fun i => depth i = 0).map (sets[·]?) =
      (sets.filter fun s => s.superset.isNone).map some := by
    have hfilter : ((List.range sets.length).map (sets[·]?)).filter
        (fun o => o.any fun s => s.superset.isNone) =
        (sets.filter fun s => s.superset.isNone).map some := by
      rw [map_getElem?_range, List.filter_map]; rfl
    rw [← hfilter, List.filter_map]
    congr 1
    refine List.filter_congr fun i hi => ?_
    have hi := List.mem_range.1 hi
    have hs := List.getElem?_eq_getElem hi
    have hzero := depth_zero_iff hs (hdepth i hi)
    rw [Bool.eq_iff_iff, decide_eq_true_eq, hzero]
    simp [hs]
  have hpre := (filter_zero_isPrefix hperm hsorted).map (sets[·]?)
  rw [← hres, htop] at hpre
  obtain ⟨rest, hrest⟩ := hpre
  have := congrArg (List.filterMap id) hrest
  exact ⟨rest.filterMap id, by simpa [List.filterMap_append, List.filterMap_map] using this⟩

/-- **The order of declaration.** The sets come sorted by depth of nesting, sets of one
depth in the order in which they were given. So every set stands behind its superset,
and the sets without superset come first, in their order. -/
theorem orderSets_sorted_by_depth (h : orderSets sets = .ok result) :
    result.Perm sets ∧ ∃ (depth : Nat → Nat) (order : List Nat),
      (∀ i < sets.length, Depth sets i (depth i)) ∧
      order.Perm (List.range sets.length) ∧
      result.map some = order.map (sets[·]?) ∧
      order.Pairwise (fun i j => depth i < depth j ∨ depth i = depth j ∧ i < j) ∧
      (∀ i p, Link sets i p → order.idxOf p < order.idxOf i) ∧
      sets.filter (fun s => s.superset.isNone) <+: result := by
  obtain ⟨depth, order, hdepth, hperm, hres, hsorted⟩ := orderSets_positions h
  exact ⟨orderSets_perm h, depth, order, hdepth, hperm, hres, hsorted,
    fun i p hl => idxOf_link_lt hdepth hperm hsorted hl,
    filter_top_isPrefix hdepth hperm hres hsorted⟩

/-- Edges with a boundary inside and a part of the boundary inside that, the innermost
set first. -/
def nestedEdges : List MeshSet :=
  [{ name := "inlet", core := 4, superset := some "boundary" },
    { name := "boundary", core := 10, superset := some "edges" }, { name := "cells", core := 100 },
    { name := "edges", core := 250 }]

theorem orderSets_nestedEdges :
    orderSets nestedEdges =
        .ok [{ name := "cells", core := 100 }, { name := "edges", core := 250 },
          { name := "boundary", core := 10, superset := some "edges" },
          { name := "inlet", core := 4, superset := some "boundary" }] ∧
      ∃ (depth : Nat → Nat) (order : List Nat), (∀ i < 4, Depth nestedEdges i (depth i)) ∧
        order.Perm (List.range 4) ∧
        order.Pairwise (fun i j => depth i < depth j ∨ depth i = depth j ∧ i < j) := by
  have h : orderSets nestedEdges =
      .ok [{ name := "cells", core := 100 }, { name := "edges", core := 250 },
        { name := "boundary", core := 10, superset := some "edges" },
        { name := "inlet", core := 4, superset := some "boundary" }] := by cbv
  obtain ⟨-, depth, order, hdepth, hperm, -, hsorted, -⟩ := orderSets_sorted_by_depth h
  exact ⟨h, depth, order, hdepth, hperm, hsorted⟩

end SparseTiling.Nesting
