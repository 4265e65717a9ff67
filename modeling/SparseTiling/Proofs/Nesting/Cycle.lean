import SparseTiling.Proofs.Nesting.Order

/-!
# Cycles of supersets

The search finds cycles without looking for them. Between its steps a position is fresh,
**open** (entered and not left yet) or left. What stands above an open position on the stack
lies below it in the nesting, so a link that leads to an open position closes a cycle. These
are the only links that the order of the search gets wrong: a set that precedes its superset
in it has a superset on a cycle.

* `Below`, `OnCycle`: following links from a set, and back to it.
* `Searching`: what holds between two steps of the search, cycles or not.
* `Searching.enter`, `Searching.leave`: each step keeps it.
* `search_sorted`, `parent_of_search_error`: what the search finds.
* `sortPositions_eq_error`: the position that is reported lies on a cycle.
* `orderSets_names_cycle`: so does the set that is named.
-/

namespace SparseTiling.Nesting

variable {sets : List MeshSet} {up : List (Option Nat)} {fresh stack done order : List Nat}

/-- One or more links lead from a position up to another. -/
def Below (up : List (Option Nat)) : Nat → Nat → Prop :=
  Relation.TransGen fun i p => parent up i = some p

theorem below_of_parent {i p : Nat} (h : parent up i = some p) : Below up i p := .single h

theorem parent_lt {i p : Nat} (h : parent up i = some p) : i < up.length := by
  by_contra hi
  have hnone : up[i]? = none := List.getElem?_eq_none_iff.2 (Nat.le_of_not_lt hi)
  simp [parent, hnone] at h

theorem mem_subsets {i k : Nat} : k ∈ subsets up i ↔ parent up k = some i := by
  have hparent : parent up k = some i ↔ up[k]? = some (some i) := by
    rw [parent, Option.join_eq_some_iff]
  rw [hparent, ← List.mk_mem_zipIdx_iff_getElem?]
  simp only [subsets, List.mem_reverse, List.mem_map, List.mem_filter, beq_iff_eq]
  constructor
  · rintro ⟨⟨l, j⟩, ⟨hmem, rfl⟩, rfl⟩
    exact hmem
  · exact fun hmem => ⟨(some i, k), ⟨hmem, rfl⟩, rfl⟩

/-! ## What stands above a position -/

/-- The part of the stack above the topmost occurrence of a position. -/
def above (stack : List Nat) (g : Nat) : List Nat := stack.takeWhile (· ≠ g)

theorem above_cons_self (g : Nat) (stack : List Nat) : above (g :: stack) g = [] := by
  simp [above]

theorem above_cons_of_ne {i g : Nat} (h : i ≠ g) (stack : List Nat) :
    above (i :: stack) g = i :: above stack g := by
  simp [above, h]

theorem above_append {g : Nat} {top : List Nat} (h : g ∉ top) (stack : List Nat) :
    above (top ++ stack) g = top ++ above stack g := by
  refine List.takeWhile_append_of_pos fun x hx => ?_
  simpa using fun he : x = g => h (he ▸ hx)

/-! ## Between two steps -/

/-- A position that was entered and not left yet. -/
def Open (fresh done : List Nat) (g : Nat) : Prop := g ∉ fresh ∧ g ∉ done

/-- What holds between two steps of the search. -/
structure Searching (up : List (Option Nat)) (fresh stack done : List Nat) : Prop where
  nodup : fresh.Nodup
  /-- A position is not left before it is entered. -/
  entered : ∀ i ∈ fresh, i ∉ done
  /-- A position is left after all its subsets, or it is on a cycle. -/
  closed : ∀ q ∈ done, ∀ k, parent up k = some q → k ∈ done ∨ Below up q q
  /-- What precedes its superset has one on a cycle. -/
  sorted : done.Pairwise fun a b => parent up a = some b → Below up b b
  /-- Everything above an open position lies below it in the nesting. -/
  nested : ∀ g < up.length, Open fresh done g → ∀ x ∈ above stack g, Below up x g
  /-- The subsets of an open position that have not been left stand above it, or it is on a
  cycle. -/
  waiting : ∀ g < up.length, Open fresh done g → ∀ k, parent up k = some g →
    k ∈ done ∨ k ∈ above stack g ∨ Below up g g

theorem searching_start (up : List (Option Nat)) :
    Searching up (List.range up.length) (List.range up.length) [] := by
  have hnone : ∀ g < up.length, ¬Open (List.range up.length) [] g :=
    fun g hg ho => ho.1 (List.mem_range.2 hg)
  exact ⟨List.nodup_range, by simp, by simp, .nil, fun g hg ho => absurd ho (hnone g hg),
    fun g hg ho => absurd ho (hnone g hg)⟩

/-- A subset of the position on top of the stack is fresh or left. If it is open, that
position stands above it and thus lies below it, which closes a cycle. -/
theorem Searching.left_or_cycle {i k : Nat} {below : List Nat}
    (h : Searching up fresh (i :: below) done) (hi : i ∈ fresh) (hk : parent up k = some i)
    (hfresh : k ∉ fresh) : k ∈ done ∨ Below up i i := by
  by_cases hdone : k ∈ done
  · exact .inl hdone
  · have hne : i ≠ k := fun he => hfresh (he ▸ hi)
    have habove : i ∈ above (i :: below) k := by simp [above_cons_of_ne hne]
    have hik : Below up i k := h.nested k (parent_lt hk) ⟨hfresh, hdone⟩ i habove
    exact .inr (hik.tail hk)

/-- Entering a position puts its fresh subsets on top of it. -/
theorem Searching.enter {i : Nat} {below : List Nat}
    (h : Searching up fresh (i :: below) done) (hi : i ∈ fresh) :
    Searching up (fresh.erase i)
      (((subsets up i).filter fun k => k ∈ fresh.erase i).reverse ++ i :: below) done := by
  set next := ((subsets up i).filter fun k => k ∈ fresh.erase i).reverse with hnext
  have herase : ∀ k, k ∈ fresh.erase i ↔ k ≠ i ∧ k ∈ fresh := fun k => h.nodup.mem_erase_iff
  have hmem : ∀ k, k ∈ next ↔ parent up k = some i ∧ k ≠ i ∧ k ∈ fresh := fun k => by
    simp only [hnext, List.mem_reverse, List.mem_filter, mem_subsets, decide_eq_true_eq, herase]
  -- entering makes `i` open; above it stand its fresh subsets, and above those that were
  -- open before, the same subsets and all that stood there
  have hopen : ∀ g, Open (fresh.erase i) done g → g = i ∨ g ≠ i ∧ Open fresh done g := fun g hg => by
    by_cases he : g = i
    · exact .inl he
    · exact .inr ⟨he, fun hf => hg.1 ((herase g).2 ⟨he, hf⟩), hg.2⟩
  have hself : above (next ++ i :: below) i = next := by
    rw [above_append fun hm => ((hmem i).1 hm).2.1 rfl, above_cons_self, List.append_nil]
  have hold : ∀ g, Open fresh done g →
      above (next ++ i :: below) g = next ++ above (i :: below) g := fun g hg =>
    above_append (fun hm => hg.1 ((hmem g).1 hm).2.2) _
  refine ⟨h.nodup.erase i, fun k hk => h.entered k ((herase k).1 hk).2, h.closed, h.sorted,
    fun g hlt hg x hx => ?_, fun g hlt hg k hk => ?_⟩
  · rcases hopen g hg with rfl | ⟨hne, hg⟩
    · rw [hself] at hx
      exact below_of_parent ((hmem x).1 hx).1
    · rw [hold g hg] at hx
      have hi : i ∈ above (i :: below) g := by simp [above_cons_of_ne (Ne.symm hne)]
      rcases List.mem_append.1 hx with hx | hx
      · have hxi : Below up x i := below_of_parent ((hmem x).1 hx).1
        exact hxi.trans (h.nested g hlt hg i hi)
      · exact h.nested g hlt hg x hx
  · rcases hopen g hg with rfl | ⟨-, hg⟩
    · rw [hself]
      by_cases hne : k = g
      · -- a set that is its own superset is a cycle of one link
        exact .inr (.inr (below_of_parent (hne ▸ hk)))
      · by_cases hf : k ∈ fresh
        · exact .inr (.inl ((hmem k).2 ⟨hk, hne, hf⟩))
        · exact (h.left_or_cycle hi hk hf).imp_right .inr
    · rw [hold g hg]
      exact (h.waiting g hlt hg k hk).imp_right (.imp_left (List.mem_append_right _))

/-- Leaving a position: nothing stands above it any more, so its subsets have been left. -/
theorem Searching.leave {i : Nat} {below : List Nat}
    (h : Searching up fresh (i :: below) done) (hi : i ∉ fresh) (hlt : i < up.length) :
    Searching up fresh below (if i ∈ done then done else i :: done) := by
  set left := if i ∈ done then done else i :: done with hleft
  have hmem : ∀ k, k ∈ left ↔ k = i ∨ k ∈ done := fun k => by
    rw [hleft]
    split
    · next hd => exact ⟨.inr, fun hk => hk.elim (fun he => he ▸ hd) id⟩
    · simp
  have hopen : ∀ g, Open fresh left g → i ≠ g ∧ Open fresh done g := fun g hg =>
    ⟨fun he => hg.2 ((hmem g).2 (.inl he.symm)), hg.1, fun hd => hg.2 ((hmem g).2 (.inr hd))⟩
  -- a position can stand on the stack several times, so it may have been left before
  have hsubsets : ∀ k, parent up k = some i → k ∈ done ∨ Below up i i := fun k hk => by
    by_cases hd : i ∈ done
    · exact h.closed i hd k hk
    · rcases h.waiting i hlt ⟨hi, hd⟩ k hk with hk | hk | hk
      · exact .inl hk
      · simp [above_cons_self] at hk
      · exact .inr hk
  refine ⟨h.nodup, fun k hk hd => ?_, fun q hq k hk => ?_, ?_, fun g hg ho x hx => ?_,
    fun g hg ho k hk => ?_⟩
  · rcases (hmem k).1 hd with rfl | hd
    · exact hi hk
    · exact h.entered k hk hd
  · have hk : k ∈ done ∨ Below up q q := by
      rcases (hmem q).1 hq with rfl | hq
      · exact hsubsets k hk
      · exact h.closed q hq k hk
    exact hk.imp_left fun hk => (hmem k).2 (.inr hk)
  · rw [hleft]
    split
    · exact h.sorted
    · next hd =>
      -- `i` is left now, so a superset left before it was not waiting for it
      exact h.sorted.cons fun q hq hp => (h.closed q hq i hp).resolve_left hd
  · obtain ⟨hne, ho⟩ := hopen g ho
    refine h.nested g hg ho x ?_
    rw [above_cons_of_ne hne]
    exact List.mem_cons_of_mem i hx
  · obtain ⟨hne, ho⟩ := hopen g ho
    rcases h.waiting g hg ho k hk with hk | hk | hk
    · exact .inl ((hmem k).2 (.inr hk))
    · rw [above_cons_of_ne hne] at hk
      rcases List.mem_cons.1 hk with he | hk
      · exact .inl ((hmem k).2 (.inl he))
      · exact .inr (.inl hk)
    · exact .inr (.inr hk)

/-! ## What the search finds -/

/-- **In the order of the search, what precedes its superset has one on a cycle.** -/
theorem search_sorted (h : Searching up fresh stack done) (hlt : ∀ i ∈ stack, i < up.length)
    (hsearch : search up fresh stack done = .ok order) :
    order.Pairwise fun a b => parent up a = some b → Below up b b := by
  fun_induction search up fresh stack done with
  | case1 fresh done =>
    obtain rfl := Except.ok.inj hsearch
    exact h.sorted
  | case2 => simp at hsearch
  | case3 fresh done i below hi hself rest next ih =>
    refine ih (h.enter hi) (fun k hk => ?_) hsearch
    rcases List.mem_append.1 hk with hk | hk
    · exact subsets_lt (List.mem_of_mem_filter (List.mem_reverse.1 hk))
    · exact hlt k hk
  | case4 fresh done i below hi ih =>
    exact ih (h.leave hi (hlt i List.mem_cons_self))
      (fun k hk => hlt k (List.mem_cons_of_mem i hk)) hsearch

/-- The search itself reports only a set that is its own superset. -/
theorem parent_of_search_error {i : Nat} (h : search up fresh stack done = .error i) :
    parent up i = some i := by
  fun_induction search up fresh stack done with
  | case1 => simp at h
  | case2 fresh done k below hk hself =>
    obtain rfl := Except.error.inj h
    exact hself
  | case3 fresh done k below hk hself rest next ih => exact ih h
  | case4 fresh done k below hk ih => exact ih h

theorem finishOrder_sorted (h : finishOrder up = .ok order) :
    order.Pairwise fun a b => parent up a = some b → Below up b b :=
  search_sorted (searching_start up) (fun _ hi => List.mem_range.1 hi) h

/-- What fails the test is the superset of some position, and does not stand in front of
it. -/
theorem misplaced_eq_some {seen : List Nat} {p : Nat} (h : misplaced up seen order = some p) :
    ∃ before i after, order = before ++ i :: after ∧ parent up i = some p ∧
      p ∉ seen ∧ p ∉ before := by
  induction order generalizing seen with
  | nil => simp [misplaced] at h
  | cons k rest ih =>
    have hlater : misplaced up (k :: seen) rest = some p →
        ∃ before i after, k :: rest = before ++ i :: after ∧ parent up i = some p ∧
          p ∉ seen ∧ p ∉ before := by
      intro hrest
      obtain ⟨before, i, after, rfl, hp, hseen, hbefore⟩ := ih hrest
      rw [List.mem_cons, not_or] at hseen
      exact ⟨k :: before, i, after, rfl, hp, hseen.2, by simp [hseen.1, hbefore]⟩
    unfold misplaced at h
    cases hk : parent up k with
    | none => exact hlater (by simpa [hk] using h)
    | some q =>
      by_cases hq : q ∈ seen
      · exact hlater (by simpa [hk, hq] using h)
      · obtain rfl : q = p := by simpa [hk, hq] using h
        exact ⟨[], k, rest, rfl, hk, hq, List.not_mem_nil⟩

/-- **The position that is reported lies on a cycle.** -/
theorem sortPositions_eq_error {p : Nat} (hlt : ∀ i q, parent up i = some q → q < up.length)
    (h : sortPositions up = .error p) : Below up p p := by
  unfold sortPositions at h
  cases hfinish : finishOrder up with
  | error i =>
    obtain rfl : i = p := by simpa [hfinish, bind, Except.bind] using h
    exact below_of_parent (parent_of_search_error hfinish)
  | ok order =>
    cases hmis : misplaced up [] order with
    | none => simp [hfinish, hmis, bind, Except.bind, pure, Except.pure] at h
    | some q =>
      obtain rfl : q = p := by
        simpa [hfinish, hmis, bind, Except.bind, throw, throwThe, MonadExceptOf.throw] using h
      obtain ⟨before, i, after, hsplit, hparent, -, hbefore⟩ := misplaced_eq_some hmis
      -- every position is somewhere in the order, and this one not in front of its subset
      have hmem : q ∈ before ++ i :: after :=
        hsplit ▸ (finishOrder_perm hfinish).mem_iff.2 (List.mem_range.2 (hlt i q hparent))
      have hbehind := (List.mem_append.1 hmem).resolve_left hbefore
      rcases List.mem_cons.1 hbehind with rfl | hafter
      · exact below_of_parent hparent
      · have hsorted := finishOrder_sorted hfinish
        rw [hsplit] at hsorted
        have hpairs := (List.pairwise_append.1 hsorted).2.1
        exact (List.pairwise_cons.1 hpairs).1 q hafter hparent

/-! ## The set that is named -/

/-- A set is on a cycle if following one or more links leads back to it. -/
def OnCycle (sets : List MeshSet) (i : Nat) : Prop := Relation.TransGen (Link sets) i i

/-- The table has the links of the sets. -/
theorem below_iff (hup : links sets = .ok up) {i p : Nat} :
    Below up i p ↔ Relation.TransGen (Link sets) i p := by
  have hlink : (fun i p => parent up i = some p) = Link sets := by
    funext i p
    exact propext (parent_eq_some_iff hup)
  rw [Below, hlink]

/-- A set on a cycle is a superset, so it is the last one of its name. -/
theorem OnCycle.lastNamed {i : Nat} (h : OnCycle sets i) : LastNamed sets (nameAt sets i) i := by
  obtain ⟨k, -, s, name, -, -, hlast⟩ := Relation.TransGen.tail'_iff.1 h
  obtain ⟨t, ht, rfl⟩ := hlast.1
  have hname : nameAt sets i = t.name := by simp [nameAt, ht]
  rwa [hname]

/-- While links are looked up, only unknown supersets are reported. -/
theorem links_error {e : Error} (h : links sets = .error e) :
    ∃ set superset, e = .unknownSuperset set superset := by
  obtain ⟨s, -, hs⟩ := mapM_eq_error h
  cases hsup : s.superset with
  | none => simp [hsup, pure, Except.pure] at hs
  | some name =>
    cases hfind : superset? name sets with
    | some p => simp [hsup, hfind, pure, Except.pure] at hs
    | none =>
      refine ⟨s.name, name, ?_⟩
      simpa [hsup, hfind, throw, throwThe, MonadExceptOf.throw, eq_comm] using hs

/-- A cycle is reported with the name of a set on it. -/
theorem onCycle_of_orderSets_error {name : String}
    (h : orderSets sets = .error (.supersetCycle name)) :
    ∃ i, OnCycle sets i ∧ nameAt sets i = name := by
  unfold orderSets at h
  cases hup : links sets with
  | error e =>
    obtain ⟨set, superset, rfl⟩ := links_error hup
    simp [hup, bind, Except.bind] at h
  | ok up =>
    cases hsort : sortPositions up with
    | ok order => simp [hup, hsort, bind, Except.bind, pure, Except.pure] at h
    | error i =>
      have hname : nameAt sets i = name := by
        simpa [hup, hsort, bind, Except.bind, throw, throwThe, MonadExceptOf.throw] using h
      have hlt : ∀ k q, parent up k = some q → q < up.length := fun k q hq => by
        rw [length_links hup]
        exact (link_lt_length ((parent_eq_some_iff hup).1 hq)).2
      exact ⟨i, (below_iff hup).1 (sortPositions_eq_error hlt hsort), hname⟩

/-- **A reported cycle is named after a set on it.** If ordering sets fails because of a
cycle, the message gives the name of one set. Following one or more links from that set, the
last one of the name, leads back to it. No other set is meant, be it one that merely lies
below a cycle or one in a part without any. -/
theorem orderSets_names_cycle {e : Error} {message : String} (h : orderSets sets = .error e)
    (hkind : e.report = .configuration .supersetCycle message) :
    ∃ name, message = "superset relation is cyclic through set `" ++ name ++ "`" ∧
      (∃ i, LastNamed sets name i ∧ OnCycle sets i) ∧
      ∀ i, ¬OnCycle sets i → ¬LastNamed sets name i := by
  obtain ⟨name, rfl, rfl⟩ : ∃ name, e = .supersetCycle name ∧
      "superset relation is cyclic through set `" ++ name ++ "`" = message := by
    cases e <;> simp_all [Error.report]
  obtain ⟨i, hcycle, hname⟩ := onCycle_of_orderSets_error h
  have hlast : LastNamed sets name i := hname ▸ hcycle.lastNamed
  refine ⟨name, rfl, ⟨i, hlast, hcycle⟩, fun k hk hnamed => hk ?_⟩
  rw [lastNamed_unique hnamed hlast]
  exact hcycle

/-- Two cycles with a tail below one of them, and a part without cycles, in which a set has
the name of one on a cycle. -/
def tangledSets : List MeshSet :=
  [{ name := "left", core := 1, superset := some "right" },
    { name := "right", core := 2, superset := some "left" }, { name := "ring", core := 3 },
    { name := "rim", core := 4, superset := some "ring" },
    { name := "spot", core := 5, superset := some "cells" }, { name := "cells", core := 6 },
    { name := "strip", core := 7, superset := some "ring" },
    { name := "band", core := 8, superset := some "strip" },
    { name := "ring", core := 9, superset := some "band" }]

theorem orderSets_tangledSets :
    orderSets tangledSets = .error (.supersetCycle "ring") ∧
      (∃ i, LastNamed tangledSets "ring" i ∧ OnCycle tangledSets i) ∧
      ∀ i, ¬OnCycle tangledSets i → ¬LastNamed tangledSets "ring" i := by
  have h : orderSets tangledSets = .error (.supersetCycle "ring") := by cbv
  have hkind : (Error.supersetCycle "ring").report = .configuration .supersetCycle
      ("superset relation is cyclic through set `" ++ "ring" ++ "`") := rfl
  obtain ⟨name, hmessage, hnamed⟩ := orderSets_names_cycle h hkind
  obtain rfl : "ring" = name := by
    simpa only [String.append_left_inj, String.append_right_inj] using hmessage
  exact ⟨h, hnamed⟩

end SparseTiling.Nesting
