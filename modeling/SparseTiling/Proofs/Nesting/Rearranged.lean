import SparseTiling.Proofs.Chain.Declaring

/-!
# Sets that are ordered again

Where names differ, the depth of a set does not depend on the order in which the sets are
given. So the stable order by depth depends on that order only through sets of one depth, and
sets that are in it already stay as they are.

* `DepthOf`: the depth of a set, said by names and not by positions.
* `depthOf_iff_depth`: both say the same where names differ.
* `orderSets_isOk`: sets that all have a depth can be ordered.
* `orderSets_pairwise`: the order by depth, with ties as given.
* `Ranked`, `KeepsTies`: sets in order, and rearrangements that matter to no tie.
* `orderSets_rearranged`: these are ordered back.
-/

namespace SparseTiling.Nesting

variable {sets given result : List MeshSet} {s t : MeshSet} {d e : Nat}

/-! ## The depth of a set -/

/-- The number of superset links above one of the sets. -/
inductive DepthOf (sets : List MeshSet) : MeshSet → Nat → Prop
  | top {s : MeshSet} : s ∈ sets → s.superset = none → DepthOf sets s 0
  | inside {s t : MeshSet} {d : Nat} : s ∈ sets → s.superset = some t.name → DepthOf sets t d →
      DepthOf sets s (d + 1)

theorem DepthOf.mem (h : DepthOf sets s d) : s ∈ sets := by
  cases h with
  | top hs _ => exact hs
  | inside hs _ _ => exact hs

/-- A depth is kept among more sets. -/
theorem DepthOf.mono (h : DepthOf sets s d) (hmore : sets ⊆ given) : DepthOf given s d := by
  induction h with
  | top hs hnone => exact .top (hmore hs) hnone
  | inside hs hname _ ih => exact .inside (hmore hs) hname ih

theorem depthOf_congr (hperm : given.Perm sets) : DepthOf given s d ↔ DepthOf sets s d :=
  ⟨fun h => h.mono hperm.subset, fun h => h.mono hperm.symm.subset⟩

/-- Where names differ, a name stands at one position only. -/
theorem lastNamed_of_nodup (hnames : (sets.map (·.name)).Nodup) {p : Nat}
    (ht : sets[p]? = some t) : LastNamed sets t.name p := by
  refine ⟨⟨t, ht, rfl⟩, fun q u hpq hu hname => ?_⟩
  obtain ⟨hp, rfl⟩ := List.getElem?_eq_some_iff.1 ht
  obtain ⟨hq, rfl⟩ := List.getElem?_eq_some_iff.1 hu
  have hne := List.pairwise_iff_getElem.1 hnames p q (by simpa using hp) (by simpa using hq) hpq
  simp only [List.getElem_map] at hne
  exact hne hname.symm

theorem depthOf_of_depth {i : Nat} (h : Depth sets i d) (hs : sets[i]? = some s) :
    DepthOf sets s d := by
  induction h generalizing s with
  | top hs' hnone =>
    obtain rfl := Option.some.inj (hs.symm.trans hs')
    exact .top (List.mem_of_getElem? hs) hnone
  | inside hlink _ ih =>
    obtain ⟨s', name, hs', hname, ⟨t, ht, rfl⟩, -⟩ := hlink
    obtain rfl := Option.some.inj (hs.symm.trans hs')
    exact .inside (List.mem_of_getElem? hs) hname (ih ht)

/-- **By names or by positions,** the depth is the same where names differ. -/
theorem depthOf_iff_depth (hnames : (sets.map (·.name)).Nodup) {i : Nat}
    (hs : sets[i]? = some s) : DepthOf sets s d ↔ Depth sets i d := by
  refine ⟨fun h => ?_, fun h => depthOf_of_depth h hs⟩
  induction h generalizing i with
  | top _ hnone => exact .top hs hnone
  | inside _ hname hd ih =>
    obtain ⟨p, hp⟩ := List.getElem?_of_mem hd.mem
    exact .inside ⟨_, _, hs, hname, lastNamed_of_nodup hnames hp⟩ (ih hp)

/-! ## The order by depth -/

/-- **Sets that all have a depth can be ordered.** -/
theorem orderSets_isOk (hnames : (sets.map (·.name)).Nodup)
    (hfounded : ∀ s ∈ sets, ∃ d, DepthOf sets s d) : ∃ result, orderSets sets = .ok result := by
  have hknown : ∀ i, ¬Dangling sets i := by
    rintro i ⟨s, name, hs, hname, hnone⟩
    obtain ⟨d, hd⟩ := hfounded s (List.mem_of_getElem? hs)
    cases hd with
    | top _ htop => rw [hname] at htop; cases htop
    | inside _ hname' hd =>
      have hsame := Option.some.inj (hname.symm.trans hname')
      exact hnone _ hd.mem hsame.symm
  obtain ⟨up, hup⟩ := links_isOk hknown
  refine (orderSets_of_links hup).1 fun i hi => ?_
  obtain ⟨d, hd⟩ := hfounded sets[i] (List.getElem_mem hi)
  exact ⟨d, (depthOf_iff_depth hnames (List.getElem?_eq_getElem hi)).1 hd⟩

/-- What comes first in a list, comes first in it as a pair. -/
theorem pairwise_pair_sublist {α : Type} (l : List α) : l.Pairwise fun a b => [a, b].Sublist l :=
  List.pairwise_iff_forall_sublist.2 id

/-- **The order by depth, with ties as given,** said of the sets themselves. -/
theorem orderSets_pairwise (hnames : (sets.map (·.name)).Nodup) (h : orderSets sets = .ok result) :
    result.Pairwise fun s t => ∀ d e, DepthOf sets s d → DepthOf sets t e →
      d < e ∨ d = e ∧ [s, t].Sublist sets := by
  obtain ⟨depth, order, hdepth, hperm, hres, hsorted⟩ := orderSets_positions h
  have hlt : ∀ i ∈ order, i < sets.length := fun i hi => List.mem_range.1 (hperm.mem_iff.1 hi)
  have hpositions : order.Pairwise fun i j => ∀ s t, sets[i]? = some s → sets[j]? = some t →
      ∀ d e, DepthOf sets s d → DepthOf sets t e → d < e ∨ d = e ∧ [s, t].Sublist sets := by
    refine hsorted.imp_of_mem ?_
    intro i j hi hj hij s t hs ht d e hd he
    -- the depths by which positions are sorted are those of the sets that stand there
    obtain rfl := depth_unique ((depthOf_iff_depth hnames hs).1 hd) (hdepth i (hlt i hi))
    obtain rfl := depth_unique ((depthOf_iff_depth hnames ht).1 he) (hdepth j (hlt j hj))
    refine hij.imp_right fun htie => ⟨htie.1, ?_⟩
    obtain ⟨hi', rfl⟩ := List.getElem?_eq_some_iff.1 hs
    obtain ⟨hj', rfl⟩ := List.getElem?_eq_some_iff.1 ht
    exact List.pairwise_iff_getElem.1 (pairwise_pair_sublist sets) i j hi' hj' htie.2
  have hsome : (order.map (sets[·]?)).Pairwise fun a b => ∀ s t, a = some s → b = some t →
      ∀ d e, DepthOf sets s d → DepthOf sets t e → d < e ∨ d = e ∧ [s, t].Sublist sets :=
    List.pairwise_map.2 hpositions
  rw [← hres, List.pairwise_map] at hsome
  exact hsome.imp fun hpair => hpair _ _ rfl rfl

/-! ## Sets in order -/

/-- Sets in the order by depth: all of them have one, and none stands behind a deeper one. -/
structure Ranked (sets : List MeshSet) : Prop where
  founded : ∀ s ∈ sets, ∃ d, DepthOf sets s d
  sorted : sets.Pairwise fun s t => ∀ d e, DepthOf sets s d → DepthOf sets t e → d ≤ e

/-- Sets that were ordered are in order. -/
theorem ranked_of_orderSets (hnames : (sets.map (·.name)).Nodup)
    (h : orderSets sets = .ok result) : Ranked result := by
  have hperm := orderSets_perm h
  constructor
  · intro s hs
    obtain ⟨i, hi⟩ := List.getElem?_of_mem (hperm.mem_iff.1 hs)
    obtain ⟨depth, -, hdepth, -⟩ := orderSets_positions h
    have hlt := (List.getElem?_eq_some_iff.1 hi).1
    exact ⟨depth i, (depthOf_congr hperm).2 (depthOf_of_depth (hdepth i hlt) hi)⟩
  · refine (orderSets_pairwise hnames h).imp fun {s t} hpair d e hd he => ?_
    have hcases := hpair d e ((depthOf_congr hperm).1 hd) ((depthOf_congr hperm).1 he)
    omega

/-- Sets of one depth come in the same order in another list. -/
def KeepsTies (sets given : List MeshSet) : Prop :=
  ∀ s t d, DepthOf sets s d → DepthOf sets t d → [s, t].Sublist sets → [s, t].Sublist given

/-- In a list without repetitions, no two items stand in both orders. -/
theorem not_sublist_swap {α : Type} {l : List α} (hl : l.Nodup) {a b : α}
    (hab : [a, b].Sublist l) : ¬[b, a].Sublist l := by
  classical
  have hfirst : l.Pairwise fun x y => l.idxOf x < l.idxOf y := by
    refine List.pairwise_iff_getElem.2 fun i j hi hj hij => ?_
    rwa [hl.idxOf_getElem i hi, hl.idxOf_getElem j hj]
  intro hba
  have hlt := List.pairwise_iff_forall_sublist.1 hfirst hab
  have hgt := List.pairwise_iff_forall_sublist.1 hfirst hba
  omega

/-- **Sets in order are ordered back,** however they were rearranged, as long as sets of one
depth keep their order. -/
theorem orderSets_rearranged (hnames : (sets.map (·.name)).Nodup) (hranked : Ranked sets)
    (hperm : given.Perm sets) (hties : KeepsTies sets given) : orderSets given = .ok sets := by
  have hnames' : (given.map (·.name)).Nodup := (hperm.map (·.name)).nodup_iff.2 hnames
  have hfounded : ∀ s ∈ given, ∃ d, DepthOf given s d := by
    intro s hs
    obtain ⟨d, hd⟩ := hranked.founded s (hperm.mem_iff.1 hs)
    exact ⟨d, (depthOf_congr hperm).2 hd⟩
  obtain ⟨result, hresult⟩ := orderSets_isOk hnames' hfounded
  have hperm' : result.Perm sets := (orderSets_perm hresult).trans hperm
  -- both lists are sorted by depth and by the order in which the sets are given
  have hsorted : result.Pairwise fun s t => ∀ d e, DepthOf sets s d → DepthOf sets t e →
      d < e ∨ d = e ∧ [s, t].Sublist given := by
    refine (orderSets_pairwise hnames' hresult).imp fun {s t} hpair d e hd he => ?_
    exact hpair d e ((depthOf_congr hperm).2 hd) ((depthOf_congr hperm).2 he)
  have hsorted' : sets.Pairwise fun s t => ∀ d e, DepthOf sets s d → DepthOf sets t e →
      d < e ∨ d = e ∧ [s, t].Sublist given := by
    refine (hranked.sorted.and (pairwise_pair_sublist sets)).imp ?_
    rintro s t ⟨hle, hpair⟩ d e hd he
    rcases Nat.lt_or_eq_of_le (hle d e hd he) with hlt | rfl
    · exact .inl hlt
    · exact .inr ⟨rfl, hties s t d hd he hpair⟩
  rw [hresult, hperm'.eq_of_pairwise ?_ hsorted hsorted']
  intro s t hs ht hst hts
  obtain ⟨d, hd⟩ := hranked.founded s (hperm'.mem_iff.1 hs)
  obtain ⟨e, he⟩ := hranked.founded t ht
  have hgiven : given.Nodup := List.Nodup.of_map _ hnames'
  rcases hst d e hd he with hlt | ⟨rfl, hpair⟩
  · have := hts e d he hd
    omega
  · rcases hts d d he hd with hlt | ⟨-, hpair'⟩
    · omega
    · exact absurd hpair' (not_sublist_swap hgiven hpair)

end SparseTiling.Nesting
