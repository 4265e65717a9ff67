import SparseTiling.Proofs.Nesting.Order
import SparseTiling.Session.Call

/-!
# Chains that calls lead to

A chain starts empty and changes by calls, each accepted or refused. What every call
keeps holds of every chain that calls lead to.

* `declareSets_eq_ok`, `declareMaps_eq_ok`, `declareLoops_eq_ok`: what an accepted
  declaration has checked and what it stores.
* `Sound`, `Sound.apply`, `sound_afterAll`: names are usable, different and bare, and
  supersets come first.
* `names_afterAll`: the same, said of the names alone.
* `Unambiguous`, `unambiguous_afterAll`: no map hides behind the keyword for direct
  access, as long as descriptors are built as they should be.
-/

namespace SparseTiling

/-- The chain after a sequence of calls, refused ones among them. -/
def Chain.afterAll (c : Chain) (calls : List Chain.Call) : Chain := calls.foldl Chain.after c

/-- A descriptor built from a raw map name or for direct access. -/
def Descriptor.Built (d : Descriptor) : Prop :=
  (∃ map mode, d = .through map mode) ∨ ∃ mode, d = .direct mode

/-- A call in which every descriptor is built that way. -/
def Chain.Call.Built : Chain.Call → Prop
  | .declareLoops loops => ∀ l ∈ loops, ∀ d ∈ l.descriptors, d.Built
  | _ => True

namespace Chain

variable {c c' : Chain}

/-! ## Accepted declarations -/

theorem checkNames_nonempty {item : Item} {twice : String → Option Error} {position : Nat}
    {seen names : List String} (h : checkNames item twice position seen names = .ok ()) :
    ∀ n ∈ names, n ≠ "" := by
  induction names generalizing position seen with
  | nil => simp
  | cons name rest ih =>
    unfold checkNames at h
    split at h
    · simp at h
    · rename_i hne
      split at h
      · simp at h
      · intro n hn
        rcases List.mem_cons.1 hn with rfl | hn
        · exact hne
        · exact ih h n hn

theorem checkNames_nodup {item : Item} {twice : String → Error} {position : Nat}
    {seen names : List String}
    (h : checkNames item (fun n => some (twice n)) position seen names = .ok ()) :
    names.Nodup ∧ ∀ n ∈ names, n ∉ seen := by
  induction names generalizing position seen with
  | nil => simp
  | cons name rest ih =>
    unfold checkNames at h
    by_cases hs : name ∈ seen
    · split at h <;> simp [hs] at h
    · split at h
      · simp at h
      · simp only [hs, decide_false] at h
        obtain ⟨hrest, hseen⟩ := ih h
        refine ⟨List.nodup_cons.2 ⟨fun hm => hseen name hm List.mem_cons_self, hrest⟩, ?_⟩
        intro n hn
        rcases List.mem_cons.1 hn with rfl | hn
        · exact hs
        · exact fun hm => hseen n hn (List.mem_cons_of_mem name hm)

theorem declareSets_eq_ok {sets : List MeshSet} (h : c.declareSets sets = .ok c') :
    ∃ result, checkNames .set (fun n => some (.duplicateSet n)) 0 []
        ((sets.map (·.bare)).map (·.name)) = .ok () ∧
      Nesting.orderSets (sets.map (·.bare)) = .ok result ∧ c' = { c with sets := result } := by
  obtain ⟨⟨⟩, hnames, h⟩ := bind_eq_ok h
  obtain ⟨result, hresult, h⟩ := bind_eq_ok h
  exact ⟨result, hnames, hresult, (Except.ok.inj h).symm⟩

theorem declareMaps_eq_ok {maps : List MeshMap} (h : c.declareMaps maps = .ok c') :
    checkNames .map (fun n => some (.duplicateMap n)) 0 []
        ((maps.map (·.bare)).map (·.name)) = .ok () ∧
      c' = { c with maps := maps.map (·.bare) } := by
  obtain ⟨⟨⟩, hnames, h⟩ := bind_eq_ok h
  exact ⟨hnames, (Except.ok.inj h).symm⟩

theorem declareLoops_eq_ok {loops : List Loop} (h : c.declareLoops loops = .ok c') :
    checkNames .loop (fun _ => none) 0 [] ((loops.map (·.bare)).map (·.name)) = .ok () ∧
      c' = { c with loops := loops.map (·.bare) } := by
  obtain ⟨⟨⟩, hnames, h⟩ := bind_eq_ok h
  exact ⟨hnames, (Except.ok.inj h).symm⟩

/-! ## What every call keeps -/

/-- Names under which items are declared: none empty, none twice, all bare. -/
structure Declarable (names : List String) : Prop where
  nonempty : ∀ n ∈ names, n ≠ ""
  distinct : names.Nodup
  bare : ∀ n ∈ names, Name.IsBare n

/-- The names of a chain are in order. -/
structure Sound (c : Chain) : Prop where
  name : Name.IsBare c.name
  setNames : Declarable (c.sets.map (·.name))
  /-- Supersets come first. -/
  nested : ∀ (i : Nat) (s : MeshSet) (name : String), c.sets[i]? = some s →
    s.superset = some name → ∃ (j : Nat) (t : MeshSet), j < i ∧ c.sets[j]? = some t ∧ t.name = name
  mapNames : Declarable (c.maps.map (·.name))
  mapEnds : ∀ m ∈ c.maps, Name.IsBare m.source ∧ Name.IsBare m.target
  loopNames : ∀ l ∈ c.loops, l.name ≠ "" ∧ Name.IsBare l.name ∧ Name.IsBare l.set
  accesses : ∀ l ∈ c.loops, ∀ d ∈ l.descriptors, ∀ n, d.map = .map n → Name.IsBare n
  partitionings : ∀ p ∈ c.partitionings, Name.IsBare p.set

theorem sound_new (name : String) : (new name).Sound where
  name := Name.isBare_bare name
  setNames := ⟨by simp [new], by simp [new], by simp [new]⟩
  nested := by simp [new]
  mapNames := ⟨by simp [new], by simp [new], by simp [new]⟩
  mapEnds := by simp [new]
  loopNames := by simp [new]
  accesses := by simp [new]
  partitionings := by simp [new]

theorem declarable_setNames {sets result : List MeshSet} {item : Item} {twice : String → Error}
    (hnames : checkNames item (fun n => some (twice n)) 0 [] ((sets.map (·.bare)).map (·.name)) =
      .ok ())
    (hresult : result.Perm (sets.map (·.bare))) : Declarable (result.map (·.name)) := by
  have hperm := hresult.map (·.name)
  refine ⟨fun n hn => ?_, hperm.nodup_iff.2 (checkNames_nodup hnames).1, fun n hn => ?_⟩
  · exact checkNames_nonempty hnames n (hperm.mem_iff.1 hn)
  · have hn := hperm.mem_iff.1 hn
    rw [List.map_map, List.mem_map] at hn
    obtain ⟨s, -, rfl⟩ := hn
    exact Name.isBare_bare s.name

theorem declarable_mapNames {maps : List MeshMap} {item : Item} {twice : String → Error}
    (hnames : checkNames item (fun n => some (twice n)) 0 [] ((maps.map (·.bare)).map (·.name)) =
      .ok ()) : Declarable ((maps.map (·.bare)).map (·.name)) := by
  refine ⟨checkNames_nonempty hnames, (checkNames_nodup hnames).1, fun n hn => ?_⟩
  rw [List.map_map, List.mem_map] at hn
  obtain ⟨m, -, rfl⟩ := hn
  exact Name.isBare_bare m.name

theorem isBare_of_bare_eq_map {r : MapRef} {n : String} (h : r.bare = .map n) : Name.IsBare n := by
  cases r with
  | direct => simp [MapRef.bare] at h
  | map name =>
    simp only [MapRef.bare, MapRef.named] at h
    split at h
    · simp at h
    · rw [← MapRef.map.inj h]
      exact Name.isBare_bare name

/-- **Every accepted call keeps the names of a chain in order.** -/
theorem Sound.apply (hc : c.Sound) {call : Call} (h : c.apply call = .ok c') : c'.Sound := by
  cases call with
  | declareSets sets =>
    obtain ⟨result, hnames, hresult, rfl⟩ := declareSets_eq_ok h
    exact { hc with
      setNames := declarable_setNames hnames (Nesting.orderSets_perm hresult)
      nested := fun i s name hs hn => Nesting.orderSets_superset_before hresult hs hn }
  | declareMaps maps =>
    obtain ⟨hnames, rfl⟩ := declareMaps_eq_ok h
    refine { hc with mapNames := declarable_mapNames hnames, mapEnds := fun m hm => ?_ }
    obtain ⟨raw, -, rfl⟩ := List.mem_map.1 hm
    exact ⟨Name.isBare_bare raw.source, Name.isBare_bare raw.target⟩
  | declareLoops loops =>
    obtain ⟨hnames, rfl⟩ := declareLoops_eq_ok h
    refine { hc with loopNames := fun l hl => ?_, accesses := fun l hl d hd n hn => ?_ }
    · have hne := checkNames_nonempty hnames l.name (List.mem_map_of_mem hl)
      obtain ⟨raw, -, rfl⟩ := List.mem_map.1 hl
      exact ⟨hne, Name.isBare_bare raw.name, Name.isBare_bare raw.set⟩
    · obtain ⟨raw, -, rfl⟩ := List.mem_map.1 hl
      obtain ⟨e, -, rfl⟩ := List.mem_map.1 hd
      exact isBare_of_bare_eq_map hn
  | declarePartitionings ps =>
    obtain rfl := Except.ok.inj h
    refine { hc with partitionings := fun p hp => ?_ }
    obtain ⟨raw, -, rfl⟩ := List.mem_map.1 hp
    exact Name.isBare_bare raw.set
  | setTileSize size =>
    obtain rfl := Except.ok.inj h
    exact { hc with }
  | setRank rank =>
    obtain rfl := Except.ok.inj h
    exact { hc with }
  | chooseSeed seed =>
    obtain ⟨chosen, -, h⟩ := bind_eq_ok h
    obtain rfl := Except.ok.inj h
    exact { hc with }

/-- What accepted calls keep holds after any call. -/
theorem after_of_apply {P : Chain → Prop} {call : Call} (hc : P c)
    (happly : ∀ c', c.apply call = .ok c' → P c') : P (c.after call) := by
  unfold after
  cases h : c.apply call with
  | error e => exact hc
  | ok c' => exact happly c' h

/-- What every call keeps holds after all of them. -/
theorem afterAll_induction {P : Chain → Prop} {calls : List Call}
    (hstep : ∀ c, ∀ call ∈ calls, P c → P (c.after call)) {c : Chain} (hc : P c) :
    P (c.afterAll calls) := by
  induction calls generalizing c with
  | nil => exact hc
  | cons call rest ih =>
    exact ih (fun c k hk => hstep c k (List.mem_cons_of_mem call hk))
      (hstep c call List.mem_cons_self hc)

/-- **The names of every chain that calls lead to are in order.** -/
theorem sound_afterAll (name : String) (calls : List Call) : ((new name).afterAll calls).Sound :=
  afterAll_induction (fun _ _ _ hc => after_of_apply hc fun _ h => hc.apply h) (sound_new name)

/-- All names that a chain holds: its own, and those of and in its declarations. -/
def allNames (c : Chain) : List String :=
  c.name :: c.sets.map (·.name) ++ c.sets.filterMap (·.superset) ++
    c.maps.flatMap (fun m => [m.name, m.source, m.target]) ++
    c.loops.flatMap (fun l => l.name :: l.set :: l.descriptors.filterMap (·.map.mapName?)) ++
    c.partitionings.map (·.set)

theorem Sound.isBare_superset (hc : c.Sound) {s : MeshSet} (hs : s ∈ c.sets) {name : String}
    (hname : s.superset = some name) : Name.IsBare name := by
  obtain ⟨i, hi⟩ := List.getElem?_of_mem hs
  obtain ⟨j, t, -, ht, rfl⟩ := hc.nested i s name hi hname
  exact hc.setNames.bare t.name (List.mem_map_of_mem (List.mem_of_getElem? ht))

theorem Sound.isBare_of_mem (hc : c.Sound) {n : String} (h : n ∈ c.allNames) : Name.IsBare n := by
  simp only [allNames, List.cons_append, List.mem_cons, List.mem_append, or_assoc] at h
  rcases h with rfl | h | h | h | h | h
  · exact hc.name
  · exact hc.setNames.bare n h
  · obtain ⟨s, hs, hn⟩ := List.mem_filterMap.1 h
    exact hc.isBare_superset hs hn
  · obtain ⟨m, hm, hn⟩ := List.mem_flatMap.1 h
    simp only [List.mem_cons, List.not_mem_nil, or_false] at hn
    rcases hn with rfl | rfl | rfl
    · exact hc.mapNames.bare m.name (List.mem_map_of_mem hm)
    · exact (hc.mapEnds m hm).1
    · exact (hc.mapEnds m hm).2
  · obtain ⟨l, hl, hn⟩ := List.mem_flatMap.1 h
    simp only [List.mem_cons, List.mem_filterMap] at hn
    rcases hn with rfl | rfl | ⟨d, hd, hn⟩
    · exact (hc.loopNames l hl).2.1
    · exact (hc.loopNames l hl).2.2
    · refine hc.accesses l hl d hd n ?_
      cases hmap : d.map with
      | direct => simp [hmap, MapRef.mapName?] at hn
      | map name => simpa [hmap, MapRef.mapName?] using hn
  · obtain ⟨p, hp, rfl⟩ := List.mem_map.1 h
    exact hc.partitionings p hp

/-- **What holds of a chain after any calls, accepted or refused.** No name in it has marks
or dots. Sets, maps and loops have names; those of sets are different, and so are those of
maps. A superset is one of the sets, further to the front. -/
theorem names_afterAll (name : String) (calls : List Call) :
    let c := (new name).afterAll calls
    (∀ n ∈ c.allNames, '/' ∉ n.toList ∧ '#' ∉ n.toList ∧ '.' ∉ n.toList) ∧
      (∀ s ∈ c.sets, s.name ≠ "") ∧ (∀ m ∈ c.maps, m.name ≠ "") ∧ (∀ l ∈ c.loops, l.name ≠ "") ∧
      (c.sets.map (·.name)).Nodup ∧ (c.maps.map (·.name)).Nodup ∧
      ∀ (i : Nat) (s : MeshSet) (superset : String), c.sets[i]? = some s →
        s.superset = some superset →
        ∃ (j : Nat) (t : MeshSet), j < i ∧ c.sets[j]? = some t ∧ t.name = superset := by
  intro c
  have hc : c.Sound := sound_afterAll name calls
  refine ⟨fun n hn => Name.isBare_iff.1 (hc.isBare_of_mem hn), fun s hs => ?_, fun m hm => ?_,
    fun l hl => (hc.loopNames l hl).1, hc.setNames.distinct, hc.mapNames.distinct, hc.nested⟩
  · exact hc.setNames.nonempty s.name (List.mem_map_of_mem hs)
  · exact hc.mapNames.nonempty m.name (List.mem_map_of_mem hm)

/-! ## Direct access -/

/-- No map of a descriptor has the name of the keyword for direct access. -/
def Unambiguous (c : Chain) : Prop :=
  ∀ l ∈ c.loops, ∀ d ∈ l.descriptors, d.map ≠ .map directKeyword

theorem named_ne_keyword {name : String} (h : name ≠ directKeyword)
    (hbare : Name.bare name = name) : MapRef.named name ≠ .map directKeyword := by
  unfold MapRef.named
  rw [if_neg h, hbare]
  exact fun he => h (MapRef.map.inj he)

/-- A built descriptor may still name the keyword, after a qualifier; declaring its loop
takes that for direct access. -/
theorem bare_ne_keyword {d : Descriptor} (h : d.Built) : d.bare.map ≠ .map directKeyword := by
  rcases h with ⟨map, mode, rfl⟩ | ⟨mode, rfl⟩
  · -- the keyword itself is direct access at once, a qualified one when its loop is declared
    simp only [Descriptor.bare, Descriptor.through, MapRef.named]
    split
    · simp [MapRef.bare]
    · simp only [MapRef.bare]
      by_cases hk : Name.bare map = directKeyword
      · simp [MapRef.named, hk]
      · exact named_ne_keyword hk (Name.bare_bare map)
  · simp [Descriptor.bare, Descriptor.direct, MapRef.bare]

theorem Unambiguous.apply (hc : c.Unambiguous) {call : Call} (hb : call.Built)
    (h : c.apply call = .ok c') : c'.Unambiguous := by
  cases call with
  | declareSets sets =>
    obtain ⟨result, -, -, rfl⟩ := declareSets_eq_ok h
    exact hc
  | declareMaps maps =>
    obtain ⟨-, rfl⟩ := declareMaps_eq_ok h
    exact hc
  | declareLoops loops =>
    obtain ⟨-, rfl⟩ := declareLoops_eq_ok h
    intro l hl d hd
    obtain ⟨raw, hraw, rfl⟩ := List.mem_map.1 hl
    obtain ⟨e, he, rfl⟩ := List.mem_map.1 hd
    exact bare_ne_keyword (hb raw hraw e he)
  | declarePartitionings ps =>
    obtain rfl := Except.ok.inj h
    exact hc
  | setTileSize size =>
    obtain rfl := Except.ok.inj h
    exact hc
  | setRank rank =>
    obtain rfl := Except.ok.inj h
    exact hc
  | chooseSeed seed =>
    obtain ⟨chosen, -, h⟩ := bind_eq_ok h
    obtain rfl := Except.ok.inj h
    exact hc

theorem unambiguous_afterAll (name : String) {calls : List Call} (hb : ∀ call ∈ calls, call.Built) :
    ((new name).afterAll calls).Unambiguous := by
  refine afterAll_induction (fun _ call hcall hc => ?_) (by simp [Unambiguous, new])
  exact after_of_apply hc fun _ h => hc.apply (hb call hcall) h

end Chain

end SparseTiling
