import SparseTiling.Proofs.Chain.Resolution
import SparseTiling.Proofs.Nesting.Rearranged

/-!
# Declaring again what is declared

What a chain holds has been made bare, checked and ordered when it was declared. Handed in once
more, it passes the same checks and nothing of it changes.

* `Sound.bare_set`, `Sound.bare_map`, `bare_loops`: what is stored is bare already.
* `ranked_afterAll`: stored sets are in the order by depth.
* `redeclare_own`: declaring again changes nothing, for sets in any order that matters to no tie.
-/

namespace SparseTiling

/-! ## Bare names stay -/

/-- What a change leaves alone one by one, it leaves alone as a whole. -/
theorem map_eq_self {α : Type} {f : α → α} {xs : List α} (h : ∀ x ∈ xs, f x = x) :
    xs.map f = xs := by
  rw [List.map_congr_left h]
  exact List.map_id xs

theorem MeshSet.bare_eq_self {s : MeshSet} (hname : Name.IsBare s.name)
    (hsuperset : ∀ n, s.superset = some n → Name.IsBare n) : s.bare = s := by
  have hkept : s.superset.map Name.bare = s.superset := by
    cases hs : s.superset with
    | none => rfl
    | some n => rw [Option.map_some, Name.bare_eq_self (hsuperset n hs)]
  rw [bare, hkept, Name.bare_eq_self hname]

theorem MeshMap.bare_eq_self {m : MeshMap} (hname : Name.IsBare m.name)
    (hsource : Name.IsBare m.source) (htarget : Name.IsBare m.target) : m.bare = m := by
  rw [bare, Name.bare_eq_self hname, Name.bare_eq_self hsource, Name.bare_eq_self htarget]

theorem Partitioning.bare_eq_self {p : Partitioning} (h : Name.IsBare p.set) : p.bare = p := by
  rw [bare, Name.bare_eq_self h]

/-- Access that was declared stays as it is, unless its map has the name of the keyword. -/
theorem Descriptor.bare_bare {d : Descriptor} (h : d.bare.map ≠ .map directKeyword) :
    d.bare.bare = d.bare := by
  obtain ⟨map, mode⟩ := d
  cases map with
  | direct => rfl
  | map name =>
    simp only [Descriptor.bare, MapRef.bare, MapRef.named] at h ⊢
    by_cases hraw : name = directKeyword
    · rw [if_pos hraw]
    · rw [if_neg hraw] at h ⊢
      have hbare : Name.bare name ≠ directKeyword := by
        intro he
        exact h (by rw [he])
      simp only [if_neg hbare, Name.bare_bare]

theorem Loop.bare_bare {l : Loop} (h : ∀ d ∈ l.descriptors, d.Built) : l.bare.bare = l.bare := by
  have hdescriptors : (l.descriptors.map (·.bare)).map (·.bare) = l.descriptors.map (·.bare) := by
    refine map_eq_self ?_
    rw [List.forall_mem_map]
    exact fun d hd => Descriptor.bare_bare (Chain.bare_ne_keyword (h d hd))
  rw [bare, bare, hdescriptors, Name.bare_bare, Name.bare_bare]

namespace Chain

variable {c : Chain}

theorem Sound.bare_set (hc : c.Sound) {s : MeshSet} (hs : s ∈ c.sets) : s.bare = s := by
  have hname := hc.setNames.bare s.name (List.mem_map_of_mem hs)
  exact MeshSet.bare_eq_self hname fun n hn => hc.isBare_superset hs hn

theorem Sound.bare_map (hc : c.Sound) {m : MeshMap} (hm : m ∈ c.maps) : m.bare = m := by
  have hname := hc.mapNames.bare m.name (List.mem_map_of_mem hm)
  obtain ⟨hsource, htarget⟩ := hc.mapEnds m hm
  exact MeshMap.bare_eq_self hname hsource htarget

/-- Loops that were declared with descriptors as they should be are bare already. -/
theorem bare_loops {raw : List Loop} (hraw : ∀ l ∈ raw, ∀ d ∈ l.descriptors, d.Built) :
    (raw.map (·.bare)).map (·.bare) = raw.map (·.bare) := by
  refine map_eq_self ?_
  rw [List.forall_mem_map]
  exact fun l hl => Loop.bare_bare (hraw l hl)

/-! ## Checks that are passed again -/

theorem Declarable.usable {names : List String} (h : Declarable names) (i : Nat) :
    ¬Unusable names i := by
  rintro ⟨n, hn, hempty | hbefore⟩
  · exact h.nonempty n (List.mem_of_getElem? hn) hempty
  · obtain ⟨hi, rfl⟩ := List.getElem?_eq_some_iff.1 hn
    obtain ⟨k, hk, he⟩ := List.mem_take_iff_getElem.1 hbefore
    have hki := (Nat.lt_min.1 hk).1
    exact List.pairwise_iff_getElem.1 h.distinct k i (by omega) hi hki he

/-- Where names may be repeated, it is enough that there are some. -/
theorem checkNames_of_nonempty {item : Item} {position : Nat} {seen names : List String}
    (h : ∀ n ∈ names, n ≠ "") : checkNames item (fun _ => none) position seen names = .ok () := by
  induction names generalizing position seen with
  | nil => rfl
  | cons name rest ih =>
    rw [List.forall_mem_cons] at h
    rw [checkNames, if_neg h.1]
    exact ih h.2

/-- **The sets of every chain that calls lead to are in the order by depth.** -/
theorem ranked_afterAll (name : String) (calls : List Call) :
    Nesting.Ranked ((new name).afterAll calls).sets := by
  refine afterAll_induction (P := fun c => Nesting.Ranked c.sets) (fun c call _ hc => ?_) ?_
  · refine after_of_apply (P := fun c => Nesting.Ranked c.sets) hc fun c' h => ?_
    cases call with
    | declareSets sets =>
      obtain ⟨result, hnames, hresult, rfl⟩ := declareSets_eq_ok h
      exact Nesting.ranked_of_orderSets (checkNames_nodup hnames).1 hresult
    | _ =>
      rw [eq_write_of_apply h]
      exact hc
  · exact ⟨by simp [new], by simp [new]⟩

/-- Rearranged sets of a chain are declared in their old order. -/
theorem declareSets_rearranged (hc : c.Sound) (hranked : Nesting.Ranked c.sets)
    {given : List MeshSet} (hperm : given.Perm c.sets)
    (hties : Nesting.KeepsTies c.sets given) : c.declareSets given = .ok c := by
  have hbare : given.map (·.bare) = given :=
    map_eq_self fun s hs => hc.bare_set (hperm.mem_iff.1 hs)
  have hpermNames := hperm.map (·.name)
  have hnames : Declarable (given.map (·.name)) :=
    ⟨fun n hn => hc.setNames.nonempty n (hpermNames.mem_iff.1 hn),
      hpermNames.nodup_iff.2 hc.setNames.distinct,
      fun n hn => hc.setNames.bare n (hpermNames.mem_iff.1 hn)⟩
  have hcheck : checkNames .set (fun n => some (.duplicateSet n)) 0 []
      ((given.map (·.bare)).map (·.name)) = .ok () := by
    rw [hbare]
    exact checkNames_of_usable hnames.usable
  have horder := Nesting.orderSets_rearranged hc.setNames.distinct hranked hperm hties
  rw [declareSets_of_checkNames hcheck, hbare, horder]
  rfl

theorem declareMaps_own (hc : c.Sound) : c.declareMaps c.maps = .ok c := by
  have hbare : c.maps.map (·.bare) = c.maps := map_eq_self fun m hm => hc.bare_map hm
  have hcheck : checkNames .map (fun n => some (.duplicateMap n)) 0 [] (c.maps.map (·.name)) =
      .ok () := checkNames_of_usable hc.mapNames.usable
  unfold declareMaps
  simp only [hbare, hcheck]
  rfl

theorem declareLoops_own (hc : c.Sound) (hbare : c.loops.map (·.bare) = c.loops) :
    c.declareLoops c.loops = .ok c := by
  have hcheck : checkNames .loop (fun _ => none) 0 [] (c.loops.map (·.name)) = .ok () := by
    refine checkNames_of_nonempty ?_
    rw [List.forall_mem_map]
    exact fun l hl => (hc.loopNames l hl).1
  unfold declareLoops
  simp only [hbare, hcheck]
  rfl

/-- **Declaring again changes nothing.** Take a chain that calls lead to, accepted or refused,
whose loops were declared with descriptors built from map names or for direct access. Its own sets,
maps, loops and partitionings are accepted once more, and the chain stays as it is. The sets may
even be handed in in another order, as long as sets of one depth of nesting keep theirs. -/
theorem redeclare_own (name : String) (calls : List Call) {raw : List Loop}
    (hraw : ∀ l ∈ raw, ∀ d ∈ l.descriptors, d.Built)
    (hloops : ((new name).afterAll calls).loops = raw.map (·.bare)) :
    let c := (new name).afterAll calls
    c.declareSets c.sets = .ok c ∧ c.declareMaps c.maps = .ok c ∧
      c.declareLoops c.loops = .ok c ∧ c.declarePartitionings c.partitionings = c ∧
      ∀ given : List MeshSet, given.Perm c.sets → Nesting.KeepsTies c.sets given →
        c.declareSets given = .ok c := by
  intro c
  have hc : c.Sound := sound_afterAll name calls
  have hranked : Nesting.Ranked c.sets := ranked_afterAll name calls
  have hbare : c.loops.map (·.bare) = c.loops := by rw [hloops, bare_loops hraw]
  refine ⟨?_, declareMaps_own hc, declareLoops_own hc hbare, ?_, ?_⟩
  · exact declareSets_rearranged hc hranked (List.Perm.refl _) fun s t d _ _ hpair => hpair
  · have hparts : c.partitionings.map (·.bare) = c.partitionings :=
      map_eq_self fun p hp => Partitioning.bare_eq_self (hc.partitionings p hp)
    rw [declarePartitionings, hparts]
  · exact fun given hperm hties => declareSets_rearranged hc hranked hperm hties

/-- A subset may go back in front of its superset. -/
theorem redeclare_own_decorated :
    let c := (new "air").afterAll decoratedCalls
    c.declareLoops c.loops = .ok c ∧ c.declareMaps c.maps = .ok c ∧
      c.declareSets (decoratedSets.map (·.bare)) = .ok c := by
  have hraw : ∀ l ∈ decoratedLoops, ∀ d ∈ l.descriptors, d.Built := by
    simp [decoratedLoops, Descriptor.Built]
  have hloops : ((new "air").afterAll decoratedCalls).loops = decoratedLoops.map (·.bare) := by cbv
  have hsets : ((new "air").afterAll decoratedCalls).sets =
      [{ name := "edges", core := 20, exec := 3 }, { name := "cells", core := 8 },
        { name := "border", core := 2, superset := some "edges" }] := by cbv
  obtain ⟨-, hmaps, hagain, -, hrearranged⟩ := redeclare_own "air" decoratedCalls hraw hloops
  refine ⟨hagain, hmaps, hrearranged _ ?_ ?_⟩
  · rw [hsets]
    decide
  · rw [hsets]
    intro s t d hs ht hpair
    -- sets of one depth both have a superset or both have none, and there is only one that has
    have hkind : s.superset.isNone = t.superset.isNone := by
      cases hs with
      | top _ hs =>
        cases ht with
        | top _ ht => rw [hs, ht]
      | inside _ hs _ =>
        cases ht with
        | inside _ ht _ => rw [hs, ht]; rfl
    obtain ⟨top, htop⟩ : ∃ top, t.superset.isNone = top := ⟨_, rfl⟩
    have hkept := hpair.filter fun r => r.superset.isNone == top
    have hboth : [s, t].filter (fun r => r.superset.isNone == top) = [s, t] := by
      simp [hkind, htop]
    rw [hboth] at hkept
    cases top with
    | true => exact hkept.trans (by decide)
    | false => exact hkept.trans (by decide)

end Chain

end SparseTiling
