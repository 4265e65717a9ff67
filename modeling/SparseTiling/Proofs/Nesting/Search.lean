import Mathlib.Data.List.Nodup
import Mathlib.Tactic
import SparseTiling.Mesh.Nesting
import SparseTiling.Proofs.Outcome

/-!
# The search over nested sets

What the search over superset links gives back, and what the test of its order
means.

* `LastNamed`, `Link`: what a superset name refers to, said without the search.
* `parent_eq_some_iff`, `parent_eq_none_iff`: the table of links says the same.
* `finishOrder_perm`: the search leaves every position exactly once.
* `misplaced_eq_none`: in an order that passes the test, supersets come first.
-/

namespace SparseTiling.Nesting

variable {sets : List MeshSet} {up : List (Option Nat)}

/-! ## What a superset name refers to -/

/-- The last set with a name stands at a position. -/
def LastNamed (sets : List MeshSet) (name : String) (p : Nat) : Prop :=
  (∃ s, sets[p]? = some s ∧ s.name = name) ∧
    ∀ q s, p < q → sets[q]? = some s → s.name ≠ name

/-- The set at position `i` has the set at position `p` as its superset. -/
def Link (sets : List MeshSet) (i p : Nat) : Prop :=
  ∃ s name, sets[i]? = some s ∧ s.superset = some name ∧ LastNamed sets name p

theorem lastNamed_unique {name : String} {p q : Nat} (hp : LastNamed sets name p)
    (hq : LastNamed sets name q) : p = q := by
  obtain ⟨⟨s, hs, hsn⟩, hpl⟩ := hp
  obtain ⟨⟨t, ht, htn⟩, hql⟩ := hq
  rcases Nat.lt_trichotomy p q with h | h | h
  · exact absurd htn (hpl q t h ht)
  · exact h
  · exact absurd hsn (hql p s h hs)

theorem link_unique {i p q : Nat} (hp : Link sets i p) (hq : Link sets i q) : p = q := by
  obtain ⟨s, name, hs, hn, hl⟩ := hp
  obtain ⟨t, name', ht, hn', hl'⟩ := hq
  rw [hs] at ht
  obtain rfl := Option.some.inj ht
  rw [hn] at hn'
  obtain rfl := Option.some.inj hn'
  exact lastNamed_unique hl hl'

theorem link_superset_ne_none {i p : Nat} {s : MeshSet} (hs : sets[i]? = some s)
    (hl : Link sets i p) : s.superset ≠ none := by
  obtain ⟨t, name, ht, hname, -⟩ := hl
  obtain rfl := Option.some.inj (hs.symm.trans ht)
  simp [hname]

theorem superset?_eq_none {name : String} :
    superset? name sets = none ↔ ∀ s ∈ sets, s.name ≠ name := by
  induction sets with
  | nil => simp [superset?]
  | cons s rest ih =>
    unfold superset?
    cases h : superset? name rest with
    | some i =>
      have hne : ¬∀ t ∈ rest, t.name ≠ name := fun hall => by simp [ih.2 hall] at h
      refine iff_of_false (by simp) fun hall => hne fun t ht => ?_
      exact hall t (List.mem_cons_of_mem s ht)
    | none =>
      have hall := ih.1 h
      by_cases hs : s.name = name
      · simp [hs]
      · simpa [hs] using hall

/-- A name is looked up as the last set of that name. -/
theorem superset?_eq_some {name : String} {p : Nat} :
    superset? name sets = some p ↔ LastNamed sets name p := by
  induction sets generalizing p with
  | nil => simp [superset?, LastNamed]
  | cons s rest ih =>
    unfold superset?
    cases h : superset? name rest with
    | some i =>
      have hi := ih.1 h
      have hlast : LastNamed (s :: rest) name (i + 1) := by
        refine ⟨by simpa using hi.1, ?_⟩
        intro q t hq ht
        obtain ⟨q, rfl⟩ : ∃ r, q = r + 1 := ⟨q - 1, by omega⟩
        exact hi.2 q t (by omega) (by simpa using ht)
      constructor
      · intro he
        obtain rfl : i + 1 = p := by simpa using he
        exact hlast
      · intro hp
        simp [lastNamed_unique hp hlast]
    | none =>
      have hnone := superset?_eq_none.1 h
      have hp0 : ∀ q t, 0 < q → (s :: rest)[q]? = some t → t.name ≠ name := by
        intro q t hq ht
        obtain ⟨q, rfl⟩ : ∃ r, q = r + 1 := ⟨q - 1, by omega⟩
        exact hnone t (List.mem_of_getElem? (by simpa using ht))
      by_cases hs : s.name = name
      · have hlast : LastNamed (s :: rest) name 0 := ⟨⟨s, rfl, hs⟩, hp0⟩
        constructor
        · intro he
          obtain rfl : 0 = p := by simpa [hs] using he
          exact hlast
        · intro hp
          simp [hs, lastNamed_unique hp hlast]
      · refine iff_of_false (by simp [hs]) ?_
        rintro ⟨⟨t, ht, htn⟩, -⟩
        cases p with
        | zero => exact hs (by rw [Option.some.inj ht, htn])
        | succ p => exact hp0 (p + 1) t (by omega) ht htn

/-! ## The table of links -/

theorem length_links (h : links sets = .ok up) : up.length = sets.length :=
  (mapM_eq_ok h).length_eq.symm

/-- The entry of the table for a set. -/
theorem links_entry (h : links sets = .ok up) {i : Nat} {s : MeshSet} (hs : sets[i]? = some s) :
    match s.superset with
    | none => parent up i = none
    | some name => ∃ p, LastNamed sets name p ∧ parent up i = some p := by
  have hi : i < sets.length := (List.getElem?_eq_some_iff.1 hs).1
  have hu : i < up.length := by rw [length_links h]; exact hi
  have hsi : sets[i] = s := (List.getElem?_eq_some_iff.1 hs).2
  have hentry := (List.forall₂_iff_get.1 (mapM_eq_ok h)).2 i hi hu
  simp only [List.get_eq_getElem, hsi] at hentry
  have hpar : parent up i = up[i] := by
    rw [parent, List.getElem?_eq_getElem hu]; rfl
  rw [hpar]
  cases hsup : s.superset with
  | none => simpa [hsup, pure, Except.pure, eq_comm] using hentry
  | some name =>
    simp only [hsup] at hentry
    cases hp : superset? name sets with
    | none => simp [hp, throw, throwThe, MonadExceptOf.throw] at hentry
    | some p =>
      refine ⟨p, superset?_eq_some.1 hp, ?_⟩
      simpa [hp, pure, Except.pure, eq_comm] using hentry

/-- The superset in the table is the one that the set names. -/
theorem parent_eq_some_iff (h : links sets = .ok up) {i p : Nat} :
    parent up i = some p ↔ Link sets i p := by
  cases hs : sets[i]? with
  | none =>
    have hi : up[i]? = none := by
      rw [List.getElem?_eq_none_iff, length_links h]; simpa using hs
    simp [parent, hi, Link, hs]
  | some s =>
    have hentry := links_entry h hs
    cases hsup : s.superset with
    | none =>
      rw [hsup] at hentry
      exact iff_of_false (by simp [hentry]) fun hl => link_superset_ne_none hs hl hsup
    | some name =>
      rw [hsup] at hentry
      obtain ⟨q, hq, hpar⟩ := hentry
      have hlink : Link sets i q := ⟨s, name, hs, hsup, hq⟩
      constructor
      · intro he
        obtain rfl : q = p := by simpa [hpar] using he
        exact hlink
      · intro hl
        rw [hpar, link_unique hlink hl]

theorem parent_eq_none_iff (h : links sets = .ok up) {i : Nat} {s : MeshSet}
    (hs : sets[i]? = some s) : parent up i = none ↔ s.superset = none := by
  have hentry := links_entry h hs
  cases hsup : s.superset with
  | none => rw [hsup] at hentry; simpa using hentry
  | some name =>
    rw [hsup] at hentry
    obtain ⟨p, -, hp⟩ := hentry
    simp [hp]

/-! ## The order in which the search leaves the positions -/

theorem subsets_lt {i k : Nat} (h : k ∈ subsets up i) : k < up.length := by
  rw [subsets, List.mem_reverse, List.mem_map] at h
  obtain ⟨⟨l, j⟩, hl, rfl⟩ := h
  have := List.mem_zipIdx (List.mem_filter.1 hl).1
  simpa using this.2.1

/-- What the search leaves: everything on the stack and everything left before,
and nothing twice. -/
theorem search_spec {fresh stack done order : List Nat} (h : search up fresh stack done = .ok order) :
    (∀ i, i ∈ stack ∨ i ∈ done → i ∈ order) ∧ (done.Nodup → order.Nodup) ∧
      ∀ i ∈ order, i ∈ stack ∨ i ∈ done ∨ i < up.length := by
  -- along the search: positions move from the stack to `done`, and only subsets join the stack
  fun_induction search up fresh stack done with
  | case1 fresh done =>
    obtain rfl := Except.ok.inj h
    exact ⟨fun i hi => by simpa using hi, id, fun i hi => .inr (.inl hi)⟩
  | case2 => simp at h
  | case3 fresh done i below hi hself rest next ih =>
    obtain ⟨hmem, hnodup, hfrom⟩ := ih h
    refine ⟨fun k hk => hmem k ?_, hnodup, fun k hk => ?_⟩
    · rcases hk with hk | hk
      · exact .inl (List.mem_append_right _ hk)
      · exact .inr hk
    · rcases hfrom k hk with hk | hk
      · rcases List.mem_append.1 hk with hk | hk
        · have hsub : k ∈ subsets up i := List.mem_of_mem_filter (List.mem_reverse.1 hk)
          exact .inr (.inr (subsets_lt hsub))
        · exact .inl hk
      · exact .inr hk
  | case4 fresh done i below hi ih =>
    obtain ⟨hmem, hnodup, hfrom⟩ := ih h
    by_cases hd : i ∈ done
    · simp only [hd] at hmem hnodup hfrom
      refine ⟨fun k hk => hmem k ?_, hnodup, fun k hk => ?_⟩
      · rcases hk with hk | hk
        · rcases List.mem_cons.1 hk with rfl | hk
          · exact .inr hd
          · exact .inl hk
        · exact .inr hk
      · rcases hfrom k hk with hk | hk
        · exact .inl (List.mem_cons_of_mem i hk)
        · exact .inr hk
    · simp only [hd] at hmem hnodup hfrom
      refine ⟨fun k hk => hmem k ?_, fun hn => hnodup (List.nodup_cons.2 ⟨hd, hn⟩), fun k hk => ?_⟩
      · rcases hk with hk | hk
        · rcases List.mem_cons.1 hk with rfl | hk
          · exact .inr List.mem_cons_self
          · exact .inl hk
        · exact .inr (List.mem_cons_of_mem i hk)
      · rcases hfrom k hk with hk | hk | hk
        · exact .inl (List.mem_cons_of_mem i hk)
        · rcases List.mem_cons.1 hk with rfl | hk
          · exact .inl List.mem_cons_self
          · exact .inr (.inl hk)
        · exact .inr (.inr hk)

/-- **The search leaves every position exactly once.** -/
theorem finishOrder_perm {order : List Nat} (h : finishOrder up = .ok order) :
    order.Perm (List.range up.length) := by
  obtain ⟨hmem, hnodup, hfrom⟩ := search_spec h
  refine (List.perm_ext_iff_of_nodup (hnodup List.nodup_nil) List.nodup_range).2 fun i => ?_
  constructor
  · intro hi
    rcases hfrom i hi with hi | hi | hi
    · exact hi
    · simp at hi
    · exact List.mem_range.2 hi
  · exact fun hi => hmem i (.inl hi)

/-- **In an order that passes the test, every superset comes first.** -/
theorem misplaced_eq_none {seen order : List Nat} (h : misplaced up seen order = none) :
    ∀ before i after, order = before ++ i :: after → ∀ p, parent up i = some p →
      p ∈ seen ∨ p ∈ before := by
  induction order generalizing seen with
  | nil => intro before i after he; simp at he
  | cons k rest ih =>
    have hrest : misplaced up (k :: seen) rest = none ∧ ∀ p, parent up k = some p → p ∈ seen := by
      unfold misplaced at h
      cases hk : parent up k with
      | none => exact ⟨by simpa [hk] using h, by simp⟩
      | some q =>
        by_cases hq : q ∈ seen
        · exact ⟨by simpa [hk, hq] using h, fun p hp => by simpa [← Option.some.inj hp] using hq⟩
        · simp [hk, hq] at h
    intro before i after he p hp
    cases before with
    | nil =>
      obtain ⟨rfl, -⟩ : k = i ∧ rest = after := by simpa using he
      exact .inl (hrest.2 p hp)
    | cons b before =>
      obtain ⟨rfl, htail⟩ : k = b ∧ rest = before ++ i :: after := by simpa using he
      rcases ih hrest.1 before i after htail p hp with h' | h'
      · rcases List.mem_cons.1 h' with rfl | h'
        · exact .inr List.mem_cons_self
        · exact .inl h'
      · exact .inr (List.mem_cons_of_mem k h')

end SparseTiling.Nesting
