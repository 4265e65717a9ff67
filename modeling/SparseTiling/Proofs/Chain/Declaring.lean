import SparseTiling.Proofs.Chain.Reached
import SparseTiling.Proofs.Nesting.Acyclic

/-!
# Which sets can be declared

A declaration of sets is checked in three passes: over the names, over the supersets that
they mention, and over the nesting that results. The first pass that finds a fault
reports the first one it finds.

* `checkNames_append`: names without fault are passed over.
* `links_eq_error`: the first superset that is not declared.
* `declareSets_verdict`: what is accepted, and what is reported otherwise.
-/

namespace SparseTiling

/-! ## Unknown supersets -/

namespace Nesting

variable {sets : List MeshSet}

/-- The set at a position names a superset that is not there. -/
def Dangling (sets : List MeshSet) (i : Nat) : Prop :=
  ∃ s name, sets[i]? = some s ∧ s.superset = some name ∧ ∀ t ∈ sets, t.name ≠ name

/-- The entry of a set in the table of links. -/
def linkOf (sets : List MeshSet) (s : MeshSet) : Except Error (Option Nat) :=
  match s.superset with
  | none => pure none
  | some name =>
    match superset? name sets with
    | some i => pure (some i)
    | none => throw (.unknownSuperset s.name name)

theorem links_eq_mapM : links sets = sets.mapM (linkOf sets) := rfl

theorem linkOf_isOk {i : Nat} {s : MeshSet} (hs : sets[i]? = some s) (h : ¬Dangling sets i) :
    ∃ link, linkOf sets s = .ok link := by
  unfold linkOf
  cases hsup : s.superset with
  | none => exact ⟨none, rfl⟩
  | some name =>
    cases hfind : superset? name sets with
    | some p => exact ⟨some p, by simp [hfind, pure, Except.pure]⟩
    | none => exact absurd ⟨s, name, hs, hsup, superset?_eq_none.1 hfind⟩ h

/-- **The first superset that is not declared is reported.** -/
theorem links_eq_error {i : Nat} {s : MeshSet} {name : String}
    (hleast : IsLeast {k | Dangling sets k} i) (hs : sets[i]? = some s)
    (hname : s.superset = some name) : links sets = .error (.unknownSuperset s.name name) := by
  obtain ⟨⟨s', name', hs', hname', hnone⟩, hfirst⟩ := hleast
  obtain rfl := Option.some.inj (hs.symm.trans hs')
  obtain rfl := Option.some.inj (hname.symm.trans hname')
  obtain ⟨hi, hget⟩ := List.getElem?_eq_some_iff.1 hs
  have hsplit : sets = sets.take i ++ s :: sets.drop (i + 1) := by
    rw [← hget, List.getElem_cons_drop hi, List.take_append_drop]
  have hbad : linkOf sets s = .error (.unknownSuperset s.name name) := by
    simp [linkOf, hname, superset?_eq_none.2 hnone, throw, throwThe, MonadExceptOf.throw]
  have hbefore : ∀ t ∈ sets.take i, ∃ link, linkOf sets t = .ok link := by
    intro t ht
    obtain ⟨k, hk, rfl⟩ := List.mem_take_iff_getElem.1 ht
    have hki : k < i := (Nat.lt_min.1 hk).1
    refine linkOf_isOk (List.getElem?_eq_getElem _) fun hd => ?_
    exact absurd (hfirst hd) (Nat.not_le_of_lt hki)
  calc links sets = (sets.take i ++ s :: sets.drop (i + 1)).mapM (linkOf sets) := by
        rw [← hsplit, links_eq_mapM]
    _ = .error (.unknownSuperset s.name name) := mapM_append_error hbefore hbad

theorem links_isOk (h : ∀ i, ¬Dangling sets i) : ∃ up, links sets = .ok up := by
  refine mapM_isOk fun s hs => ?_
  obtain ⟨i, hi⟩ := List.getElem?_of_mem hs
  exact linkOf_isOk hi (h i)

end Nesting

namespace Chain

variable {item : Item} {twice : String → Error} {names : List String}

/-! ## Unusable names -/

/-- The name at a position is empty, or an earlier one. -/
def Unusable (names : List String) (i : Nat) : Prop :=
  ∃ n, names[i]? = some n ∧ (n = "" ∨ n ∈ names.take i)

/-- Names without fault are passed over. -/
theorem checkNames_append (item : Item) (twice : String → Error) (position : Nat)
    (seen rest : List String) {before : List String} (hne : ∀ n ∈ before, n ≠ "")
    (hnodup : (before.reverse ++ seen).Nodup) :
    checkNames item (fun n => some (twice n)) position seen (before ++ rest) =
      checkNames item (fun n => some (twice n)) (position + before.length)
        (before.reverse ++ seen) rest := by
  induction before generalizing position seen with
  | nil => rfl
  | cons n before ih =>
    have hn : n ≠ "" := hne n List.mem_cons_self
    have hnodup' : (before.reverse ++ n :: seen).Nodup := by simpa using hnodup
    have hseen : n ∉ seen := by
      have htail := (List.nodup_append.1 hnodup').2.1
      exact (List.nodup_cons.1 htail).1
    have hrest := ih (position + 1) (n :: seen)
      (fun m hm => hne m (List.mem_cons_of_mem n hm)) hnodup'
    rw [List.cons_append, checkNames, if_neg hn]
    simp only [hseen, decide_false]
    rw [hrest]
    simp [Nat.add_assoc, Nat.add_comm 1]

/-- The names in front of the first unusable one are passed over. -/
theorem usable_take {i : Nat} (h : ∀ k < i, ¬Unusable names k) :
    (∀ n ∈ names.take i, n ≠ "") ∧ (names.take i).Nodup := by
  constructor
  · rintro n hn rfl
    obtain ⟨k, hk, he⟩ := List.mem_take_iff_getElem.1 hn
    have hki := Nat.lt_min.1 hk
    exact h k hki.1 ⟨"", by rw [List.getElem?_eq_getElem hki.2, he], .inl rfl⟩
  · refine List.pairwise_iff_getElem.2 fun a b ha hb hab he => ?_
    rw [List.length_take] at hb
    have hbi := Nat.lt_min.1 hb
    simp only [List.getElem_take] at he
    refine h b hbi.1 ⟨names[b], List.getElem?_eq_getElem hbi.2, .inr ?_⟩
    exact List.mem_take_iff_getElem.2 ⟨a, by omega, he⟩

/-- **The first unusable name is reported.** -/
theorem checkNames_eq_error {i : Nat} {n : String} (hleast : IsLeast {k | Unusable names k} i)
    (hn : names[i]? = some n) :
    checkNames item (fun n => some (twice n)) 0 [] names =
      .error (if n = "" then .unnamed item i else twice n) := by
  obtain ⟨⟨n', hn', hbad⟩, hfirst⟩ := hleast
  obtain rfl := Option.some.inj (hn.symm.trans hn')
  obtain ⟨hi, hget⟩ := List.getElem?_eq_some_iff.1 hn
  obtain ⟨hne, hnodup⟩ := usable_take fun k hk hu => absurd (hfirst hu) (Nat.not_le_of_lt hk)
  -- the check passes over the names in front of the fault and stops at it
  have hsplit : names = names.take i ++ n :: names.drop (i + 1) := by
    rw [← hget, List.getElem_cons_drop hi, List.take_append_drop]
  have hlen : (names.take i).length = i := List.length_take_of_le (Nat.le_of_lt hi)
  calc checkNames item (fun n => some (twice n)) 0 [] names
      = checkNames item (fun n => some (twice n)) 0 []
          (names.take i ++ n :: names.drop (i + 1)) := by rw [← hsplit]
    _ = checkNames item (fun n => some (twice n)) i (names.take i).reverse
          (n :: names.drop (i + 1)) := by
        rw [checkNames_append item twice 0 [] _ hne (by simpa using hnodup), hlen, Nat.zero_add,
          List.append_nil]
    _ = .error (if n = "" then .unnamed item i else twice n) := by
        unfold checkNames
        by_cases he : n = ""
        · simp [he]
        · have hseen : n ∈ names.take i := hbad.resolve_left he
          simp [he, hseen]

theorem checkNames_of_usable (h : ∀ i, ¬Unusable names i) :
    checkNames item (fun n => some (twice n)) 0 [] names = .ok () := by
  have hall := usable_take (i := names.length) fun k _ => h k
  rw [List.take_length] at hall
  have hpass := checkNames_append item twice 0 [] [] hall.1 (by simpa using hall.2)
  rw [List.append_nil] at hpass
  rw [hpass, checkNames]

/-! ## The verdict on a declaration -/

theorem declareSets_of_checkNames_error {c : Chain} {raw : List MeshSet} {e : Error}
    (h : checkNames .set (fun n => some (.duplicateSet n)) 0 []
      ((raw.map (·.bare)).map (·.name)) = .error e) : c.declareSets raw = .error e := by
  unfold declareSets
  simp only [h, bind, Except.bind]

theorem declareSets_of_checkNames {c : Chain} {raw : List MeshSet}
    (h : checkNames .set (fun n => some (.duplicateSet n)) 0 []
      ((raw.map (·.bare)).map (·.name)) = .ok ()) :
    c.declareSets raw =
      (Nesting.orderSets (raw.map (·.bare))).map fun result => { c with sets := result } := by
  unfold declareSets
  simp only [h, bind, Except.bind]
  cases Nesting.orderSets (raw.map (·.bare)) <;> rfl

theorem declareSets_of_links {c : Chain} {raw : List MeshSet} {up : List (Option Nat)}
    (hnames : ∀ i, ¬Unusable ((raw.map (·.bare)).map (·.name)) i)
    (hup : Nesting.links (raw.map (·.bare)) = .ok up) :
    ((∃ name, c.declareSets raw = .error (.supersetCycle name)) ↔
        ∃ i < raw.length, ¬Nesting.Founded (raw.map (·.bare)) i) ∧
      ((∀ i < raw.length, Nesting.Founded (raw.map (·.bare)) i) →
        ∃ result, c.declareSets raw = .ok { c with sets := result }) := by
  have hdeclare : c.declareSets raw = _ := declareSets_of_checkNames (checkNames_of_usable hnames)
  have horder := Nesting.orderSets_of_links hup
  rw [List.length_map] at horder
  have hok : (∀ i < raw.length, Nesting.Founded (raw.map (·.bare)) i) →
      ∃ result, c.declareSets raw = .ok { c with sets := result } := fun h => by
    obtain ⟨result, hresult⟩ := horder.1 h
    exact ⟨result, by rw [hdeclare, hresult]; rfl⟩
  refine ⟨⟨fun ⟨name, hname⟩ => ?_, fun h => ?_⟩, hok⟩
  · by_contra hall
    push Not at hall
    obtain ⟨result, hresult⟩ := hok hall
    simp [hresult] at hname
  · obtain ⟨name, hname⟩ := horder.2 h
    exact ⟨name, by rw [hdeclare, hname]; rfl⟩

/-- **Which sets can be declared, and what is reported otherwise.** The names that count
are bare. The first empty or repeated name is reported; if there is none, the first
superset that is not declared; if there is none, a cycle, exactly if some set does not lie
below a set without superset. All other declarations are accepted. -/
theorem declareSets_verdict (c : Chain) (raw : List MeshSet) :
    let sets := raw.map (·.bare)
    let names := sets.map (·.name)
    (∀ i n, IsLeast {k | Unusable names k} i → names[i]? = some n →
        c.declareSets raw = .error (if n = "" then .unnamed .set i else .duplicateSet n)) ∧
      ((∀ i, ¬Unusable names i) →
        (∀ i s superset, IsLeast {k | Nesting.Dangling sets k} i → sets[i]? = some s →
          s.superset = some superset →
          c.declareSets raw = .error (.unknownSuperset s.name superset)) ∧
        ((∀ i, ¬Nesting.Dangling sets i) →
          ((∃ name, c.declareSets raw = .error (.supersetCycle name)) ↔
            ∃ i < raw.length, ¬Nesting.Founded sets i) ∧
          ((∀ i < raw.length, Nesting.Founded sets i) →
            ∃ result, c.declareSets raw = .ok { c with sets := result }))) := by
  intro sets names
  refine ⟨fun i n hleast hn => ?_, fun hnames => ⟨fun i s superset hleast hs hsup => ?_,
    fun hdangling => ?_⟩⟩
  · exact declareSets_of_checkNames_error (checkNames_eq_error hleast hn)
  · have hlinks : Nesting.orderSets sets = .error (.unknownSuperset s.name superset) := by
      simp only [Nesting.orderSets, Nesting.links_eq_error hleast hs hsup, bind, Except.bind]
    rw [declareSets_of_checkNames (checkNames_of_usable hnames), hlinks]
    rfl
  · obtain ⟨up, hup⟩ := Nesting.links_isOk hdangling
    exact declareSets_of_links hnames hup

/-- Two names that differ only in their decoration, behind a set that is its own superset:
the repeated name is reported. -/
theorem declareSets_decorated :
    (new "chain").declareSets
        [{ name := "mesh.cells", core := 8, superset := some "cells" },
          { name := "#cells", core := 4 }] = .error (.duplicateSet "cells") := by
  have hleast : IsLeast {k | Unusable ["cells", "cells"] k} 1 := by
    refine ⟨⟨"cells", rfl, .inr (by simp)⟩, fun k hk => ?_⟩
    obtain ⟨n, hn, hbad⟩ := hk
    cases k with
    | zero =>
      obtain rfl : "cells" = n := by simpa using hn
      simp at hbad
    | succ k => omega
  exact (declareSets_verdict (new "chain") _).1 1 "cells" hleast rfl

end Chain

end SparseTiling
