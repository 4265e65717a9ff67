import SparseTiling.Proofs.Chain.Declaring
import SparseTiling.Proofs.Chain.References
import SparseTiling.Proofs.Session.History

/-!
# What declared names refer to

Sets, maps, loops and descriptors name each other by raw names, and each declaration makes its
own names bare. Names that differ may become alike, but then the declaration of the sets or maps
that they stand for is refused. So a name goes on referring to what it named at first; the one
exception is a descriptor whose bare map name is the keyword for direct access.

* `filter_eq_singleton`: under names that differ, a name refers to one item only.
* `declareLoops_accesses`: what declaring loops makes of their descriptors.
* `SelfContained`: every name in a description is the raw name of something in it.
* `exists_apply_of_run`: a part of a chain is left by the one call that writes it.
* `selfContained_resolves`: a description that contains all it names can be generated from.
-/

namespace SparseTiling

/-- With keys that differ, an item is the only one with its key. -/
theorem filter_eq_singleton {α : Type} {key : α → String} {xs : List α} {x : α}
    (hkeys : (xs.map key).Nodup) (hx : x ∈ xs) :
    xs.filter (fun y => decide (key y = key x)) = [x] := by
  induction xs with
  | nil => cases hx
  | cons y xs ih =>
    obtain ⟨hy, hkeys⟩ := List.nodup_cons.1 hkeys
    rcases List.mem_cons.1 hx with rfl | hx
    · have hothers : xs.filter (fun z => decide (key z = key x)) = [] := by
        rw [List.filter_eq_nil_iff]
        intro z hz hkey
        exact hy (List.mem_map.2 ⟨z, hz, of_decide_eq_true hkey⟩)
      rw [List.filter_cons_of_pos (by simp), hothers]
    · have hne : key y ≠ key x := fun he => hy (he ▸ List.mem_map_of_mem hx)
      rw [List.filter_cons_of_neg (by simpa using hne), ih hkeys hx]

/-! ## Descriptors -/

namespace Descriptor

variable {d : Descriptor}

/-- Declared access is direct if it was so before, or if its map has the name of the keyword. -/
theorem bare_eq_direct_iff :
    d.bare.map = .direct ↔ d.map = .direct ∨ d.map = .map directKeyword := by
  unfold bare
  cases d.map with
  | direct => simp [MapRef.bare]
  | map name => simp [MapRef.bare, MapRef.named]

/-- Access that stays indirect goes through the map with the bare name. -/
theorem bare_through {raw : String} {mode : AccessMode}
    (h : (through raw mode).bare.map ≠ .direct) :
    (through raw mode).bare.map = .map (Name.bare raw) := by
  have hraw : raw ≠ directKeyword := by
    rintro rfl
    exact h (bare_eq_direct_iff.2 (.inl rfl))
  have hnamed : (through raw mode).map = .map (Name.bare raw) := if_neg hraw
  have hbare : Name.bare raw ≠ directKeyword := by
    intro hkeyword
    exact h (bare_eq_direct_iff.2 (.inr (by rw [hnamed, hkeyword])))
  rw [bare, hnamed, MapRef.bare, MapRef.named, if_neg hbare, Name.bare_bare]

end Descriptor

namespace Chain

variable {c c' : Chain} {sets : List MeshSet} {maps : List MeshMap} {loops : List Loop}

/-- A declared map is found under its bare name. -/
theorem findMap?_declared (h : c.declareMaps maps = .ok c') {m : MeshMap} (hm : m ∈ maps)
    {t : Chain} (ht : t.maps = c'.maps) : t.findMap? (Name.bare m.name) = some m.bare := by
  obtain ⟨hnames, rfl⟩ := declareMaps_eq_ok h
  have hunique := filter_eq_singleton (checkNames_nodup hnames).1 (List.mem_map_of_mem hm)
  rw [findMap?, ht, ← List.head?_filter]
  exact congrArg List.head? hunique

/-- **What declaring loops makes of their descriptors.** As many descriptors as before are stored,
in the same order and with the same modes. Direct access stays direct; access through a map becomes
direct if its map has the name of the keyword, and only then. Otherwise the bare name is stored,
under which the map is found that was declared under the same raw name. -/
theorem declareLoops_accesses (h : c.declareLoops loops = .ok c') :
    c'.loops.length = loops.length ∧
    ∀ (i : Nat) (l l' : Loop), loops[i]? = some l → c'.loops[i]? = some l' →
      l'.descriptors.length = l.descriptors.length ∧
      l'.descriptors.map (·.mode) = l.descriptors.map (·.mode) ∧
      ∀ (k : Nat) (d d' : Descriptor), l.descriptors[k]? = some d → l'.descriptors[k]? = some d' →
        (d'.map = .direct ↔ d.map = .direct ∨ d.map = .map directKeyword) ∧
        ∀ raw mode, d = .through raw mode → d'.map ≠ .direct →
          d'.map = .map (Name.bare raw) ∧
          ∀ (c₁ c₂ t : Chain) (maps : List MeshMap) (m : MeshMap), c₁.declareMaps maps = .ok c₂ →
            m ∈ maps → m.name = raw → t.maps = c₂.maps →
            t.findMap? (Name.bare raw) = some m.bare := by
  obtain ⟨-, rfl⟩ := declareLoops_eq_ok h
  refine ⟨List.length_map _, fun i l l' hl hl' => ?_⟩
  obtain rfl : l.bare = l' := by simpa [hl] using hl'
  refine ⟨List.length_map _, by simp [Loop.bare, Descriptor.bare, Function.comp_def], ?_⟩
  intro k d d' hd hd'
  obtain rfl : d.bare = d' := by simpa [Loop.bare, hd] using hd'
  refine ⟨Descriptor.bare_eq_direct_iff, ?_⟩
  rintro raw mode rfl hindirect
  refine ⟨Descriptor.bare_through hindirect, ?_⟩
  rintro c₁ c₂ t maps m hmaps hm rfl ht
  exact findMap?_declared hmaps hm ht

/-- **A qualified keyword.** Access through a map is handed in, direct access is stored. -/
theorem qualified_keyword_becomes_direct : ∃ c',
    (new "ring").declareLoops [⟨"relax", "cells", [.through "op2.DIRECT" .read]⟩] = .ok c' ∧
      (Descriptor.through "op2.DIRECT" .read).map.isDirect = false ∧
      (c'.loops.flatMap (·.descriptors)).map (·.map.isDirect) = [true] :=
  ⟨_, rfl, by decide, by decide⟩

/-- A loop with access through a map of that name, through another one and without a map. -/
def qualifiedLoop : Loop :=
  ⟨"relax", "cells", [.through "op2.DIRECT" .read, .through "op2.next#" .read, .direct .write]⟩

theorem declareLoops_accesses_qualified : ∃ c' m',
    (new "ring").declareLoops [qualifiedLoop] = .ok c' ∧
      (new "ring").declareMaps [⟨"op2.next#", "cells", "cells", [1, 0]⟩] = .ok m' ∧
      ∃ l' d₀ d₁ d₂, c'.loops = [l'] ∧ l'.descriptors = [d₀, d₁, d₂] ∧
        d₀.map = .direct ∧ d₁.map = .map "next" ∧ d₂.map = .direct ∧
        m'.findMap? "next" = some ⟨"next", "cells", "cells", [1, 0]⟩ := by
  have hloops : (new "ring").declareLoops [qualifiedLoop] =
      .ok { new "ring" with loops := [qualifiedLoop.bare] } := rfl
  have hmaps : (new "ring").declareMaps [⟨"op2.next#", "cells", "cells", [1, 0]⟩] =
      .ok { new "ring" with maps := [⟨"next", "cells", "cells", [1, 0]⟩] } := by cbv
  have hnext : Name.bare "op2.next#" = "next" := by decide
  have hfound : (⟨"op2.next#", "cells", "cells", [1, 0]⟩ : MeshMap).bare =
      ⟨"next", "cells", "cells", [1, 0]⟩ := by decide
  obtain ⟨-, hstored⟩ := declareLoops_accesses hloops
  obtain ⟨-, -, haccess⟩ := hstored 0 qualifiedLoop qualifiedLoop.bare rfl rfl
  have hfirst := (haccess 0 _ _ rfl rfl).1.2 (.inr rfl)
  have hlast := (haccess 2 _ _ rfl rfl).1.2 (.inl rfl)
  have hindirect : (Descriptor.through "op2.next#" .read).bare.map ≠ .direct := by decide
  obtain ⟨hname, hfind⟩ := (haccess 1 _ _ rfl rfl).2 "op2.next#" .read rfl hindirect
  have hmap := hfind _ _ _ _ _ hmaps List.mem_cons_self rfl rfl
  rw [hnext] at hname hmap
  rw [hfound] at hmap
  exact ⟨_, _, hloops, hmaps, _, _, _, _, rfl, rfl, hfirst, hname, hlast, hmap⟩

/-! ## Self-contained descriptions -/

/-- Every name in the sets, maps and loops is the raw name of one of the sets or maps. -/
structure SelfContained (sets : List MeshSet) (maps : List MeshMap) (loops : List Loop) :
    Prop where
  supersets : ∀ s ∈ sets, ∀ name, s.superset = some name → ∃ r ∈ sets, r.name = name
  ends : ∀ m ∈ maps, (∃ r ∈ sets, r.name = m.source) ∧ ∃ r ∈ sets, r.name = m.target
  iterations : ∀ l ∈ loops, ∃ r ∈ sets, r.name = l.set
  accesses : ∀ l ∈ loops, ∀ d ∈ l.descriptors,
    (∃ mode, d = .direct mode) ∨ ∃ m ∈ maps, ∃ mode, d = .through m.name mode

variable {calls : List Call}

/-- What a name check may report. -/
theorem checkNames_error {item : Item} {twice : String → Error} {position : Nat}
    {seen names : List String} {e : Error}
    (h : checkNames item (fun n => some (twice n)) position seen names = .error e) :
    (∃ i, e = .unnamed item i) ∨ ∃ n, e = twice n := by
  induction names generalizing position seen with
  | nil => cases h
  | cons name rest ih =>
    unfold checkNames at h
    by_cases hempty : name = ""
    · rw [if_pos hempty] at h
      exact .inl ⟨position, (Except.error.inj h).symm⟩
    · rw [if_neg hempty] at h
      by_cases hseen : name ∈ seen
      · simp only [hseen, decide_true] at h
        exact .inr ⟨name, (Except.error.inj h).symm⟩
      · simp only [hseen, decide_false] at h
        exact ih h

/-- Where every superset is declared, nothing but a cycle is reported. -/
theorem orderSets_error {up : List (Option Nat)} {e : Error} (hup : Nesting.links sets = .ok up)
    (h : Nesting.orderSets sets = .error e) : ∃ name, e = .supersetCycle name := by
  obtain ⟨hfounded, hcycle⟩ := Nesting.orderSets_of_links hup
  by_cases hall : ∀ i < sets.length, Nesting.Founded sets i
  · obtain ⟨result, hresult⟩ := hfounded hall
    rw [hresult] at h
    cases h
  · push Not at hall
    obtain ⟨name, hname⟩ := hcycle hall
    rw [hname] at h
    exact ⟨name, (Except.error.inj h).symm⟩

/-- Making names bare keeps every superset among the sets. -/
theorem not_dangling_bare
    (h : ∀ s ∈ sets, ∀ name, s.superset = some name → ∃ r ∈ sets, r.name = name) (i : Nat) :
    ¬Nesting.Dangling (sets.map (·.bare)) i := by
  rintro ⟨s, name, hs, hname, hnone⟩
  obtain ⟨raw, hraw, rfl⟩ := List.mem_map.1 (List.mem_of_getElem? hs)
  obtain ⟨superset, hsuperset, rfl⟩ := Option.map_eq_some_iff.1 hname
  obtain ⟨r, hr, rfl⟩ := h raw hraw superset hsuperset
  exact hnone r.bare (List.mem_map_of_mem hr) rfl

/-- **Sets that name each other are never refused for an undeclared set.** -/
theorem declareSets_error
    (hsupersets : ∀ s ∈ sets, ∀ name, s.superset = some name → ∃ r ∈ sets, r.name = name)
    {e : Error} (h : c.declareSets sets = .error e) :
    (∃ i, e = .unnamed .set i) ∨ (∃ n, e = .duplicateSet n) ∨ ∃ n, e = .supersetCycle n := by
  cases hnames : checkNames .set (fun n => some (.duplicateSet n)) 0 []
      ((sets.map (·.bare)).map (·.name)) with
  | error e' =>
    rw [declareSets_of_checkNames_error hnames] at h
    obtain rfl := Except.error.inj h
    rcases checkNames_error hnames with hunnamed | htwice
    · exact .inl hunnamed
    · exact .inr (.inl htwice)
  | ok _ =>
    obtain ⟨up, hup⟩ := Nesting.links_isOk (not_dangling_bare hsupersets)
    rw [declareSets_of_checkNames hnames] at h
    cases horder : Nesting.orderSets (sets.map (·.bare)) with
    | error e' =>
      rw [horder] at h
      obtain rfl := Except.error.inj h
      exact .inr (.inr (orderSets_error hup horder))
    | ok result =>
      rw [horder] at h
      cases h

/-! ## Runs of calls -/

/-- **A part of a chain is left by the one call that writes it.** -/
theorem exists_apply_of_run {α : Type} (part : Chain → α) (call : Call)
    (hother : ∀ x ∈ calls, x ≠ call → ∀ c c' : Chain, c.apply x = .ok c' → part c' = part c)
    (hcall : call ∈ calls) (h : calls.foldlM apply c = .ok c') :
    ∃ c₁ c₂ : Chain, c₁.apply call = .ok c₂ ∧ part c' = part c₂ := by
  -- the last call is the one that counts, or leaves the part as it was before
  induction calls using List.reverseRecOn generalizing c' with
  | nil => cases hcall
  | append_singleton front x ih =>
    rw [List.foldlM_append] at h
    obtain ⟨c₀, hfront, h⟩ := bind_eq_ok h
    replace h : c₀.apply x = .ok c' := by simpa using h
    by_cases hx : x = call
    · exact ⟨c₀, c', hx ▸ h, rfl⟩
    · have hmem : call ∈ front := by simpa [Ne.symm hx] using hcall
      obtain ⟨c₁, c₂, happly, hpart⟩ :=
        ih (fun y hy => hother y (List.mem_append_left _ hy)) hmem hfront
      have hlast := hother x (by simp) hx c₀ c' h
      exact ⟨c₁, c₂, happly, hlast.trans hpart⟩

/-- The calls declare these sets, maps and loops and no others, in any order and with any other
calls between them. -/
structure Declares (calls : List Call) (sets : List MeshSet) (maps : List MeshMap)
    (loops : List Loop) : Prop where
  sets : ∀ x, .declareSets x ∈ calls ↔ x = sets
  maps : ∀ x, .declareMaps x ∈ calls ↔ x = maps
  loops : ∀ x, .declareLoops x ∈ calls ↔ x = loops

/-- What accepted declarations leave in a chain, whatever their order. -/
theorem Declares.parts (hcalls : Declares calls sets maps loops)
    (h : calls.foldlM apply c = .ok c') :
    (∃ c₁ c₂ : Chain, c₁.declareSets sets = .ok c₂ ∧ c'.sets = c₂.sets) ∧
      (∃ c₁ c₂ : Chain, c₁.declareMaps maps = .ok c₂ ∧ c'.maps = c₂.maps) ∧
      ∃ c₁ c₂ : Chain, c₁.declareLoops loops = .ok c₂ ∧ c'.loops = c₂.loops := by
  refine ⟨exists_apply_of_run (·.sets) (.declareSets sets) ?_ ((hcalls.sets _).2 rfl) h,
    exists_apply_of_run (·.maps) (.declareMaps maps) ?_ ((hcalls.maps _).2 rfl) h,
    exists_apply_of_run (·.loops) (.declareLoops loops) ?_ ((hcalls.loops _).2 rfl) h⟩
  all_goals
    intro x hx hne c₁ c₂ happly
    rw [eq_write_of_apply happly]
  · cases x with
    | declareSets y => exact absurd (congrArg Call.declareSets ((hcalls.sets y).1 hx)) hne
    | _ => rfl
  · cases x with
    | declareMaps y => exact absurd (congrArg Call.declareMaps ((hcalls.maps y).1 hx)) hne
    | _ => rfl
  · cases x with
    | declareLoops y => exact absurd (congrArg Call.declareLoops ((hcalls.loops y).1 hx)) hne
    | _ => rfl

/-! ## Resolution -/

/-- A declared set is the only one under its bare name. -/
theorem filter_declaredSets {t : Chain} (h : c.declareSets sets = .ok c') (ht : t.sets = c'.sets)
    {r : MeshSet} (hr : r ∈ sets) {name : String} (hname : r.name = name) :
    t.sets.filter (fun s => decide (s.name = Name.bare name)) = [r.bare] := by
  obtain ⟨result, hnames, hresult, rfl⟩ := declareSets_eq_ok h
  have hperm := Nesting.orderSets_perm hresult
  have hnodup : (result.map (·.name)).Nodup :=
    (hperm.map (·.name)).nodup_iff.2 (checkNames_nodup hnames).1
  have hmem : r.bare ∈ result := hperm.mem_iff.2 (List.mem_map_of_mem hr)
  have hunique := filter_eq_singleton hnodup hmem
  subst hname
  rw [ht]
  exact hunique

theorem hasSet_of_filter {name : String} {s : MeshSet}
    (h : c.sets.filter (fun s => decide (s.name = name)) = [s]) : c.hasSet name = true := by
  have hmem : s ∈ c.sets.filter (fun s => decide (s.name = name)) := by
    rw [h]
    exact List.mem_singleton_self s
  obtain ⟨hs, hname⟩ := List.mem_filter.1 hmem
  exact List.any_eq_true.2 ⟨s, hs, hname⟩

/-- Accepted sets have different bare names. -/
theorem bare_injOn_declaredSets (h : c.declareSets sets = .ok c') {r r' : MeshSet} (hr : r ∈ sets)
    (hr' : r' ∈ sets) (hname : Name.bare r.name = Name.bare r'.name) : r = r' := by
  obtain ⟨-, hnames, -, -⟩ := declareSets_eq_ok h
  have hnodup := (checkNames_nodup hnames).1
  rw [List.map_map] at hnodup
  exact List.inj_on_of_nodup_map hnodup hr hr' hname

/-- **References in a self-contained description are in order** once all of it is declared. -/
theorem SelfContained.resolved (hself : SelfContained sets maps loops) {c₁ c₂ c₃ c₄ t : Chain}
    (hsets : c₁.declareSets sets = .ok c₂) (hstored : t.sets = c₂.sets)
    (hmaps : c₃.declareMaps maps = .ok c₄) (hmaps' : t.maps = c₄.maps)
    (hloops : t.loops = loops.map (·.bare)) : t.Resolved where
  maps := by
    rw [hmaps', (declareMaps_eq_ok hmaps).2, List.forall_mem_map]
    intro m hm
    obtain ⟨⟨r, hr, hsource⟩, r', hr', htarget⟩ := hself.ends m hm
    exact ⟨hasSet_of_filter (filter_declaredSets hsets hstored hr hsource),
      hasSet_of_filter (filter_declaredSets hsets hstored hr' htarget)⟩
  loops := by
    rw [hloops, List.forall_mem_map]
    intro l hl
    obtain ⟨r, hr, hset⟩ := hself.iterations l hl
    exact hasSet_of_filter (filter_declaredSets hsets hstored hr hset)
  accesses := by
    rw [hloops, List.forall_mem_map]
    intro l hl d hd n hn
    obtain ⟨raw, hraw, rfl⟩ := List.mem_map.1 hd
    rcases hself.accesses l hl raw hraw with ⟨mode, rfl⟩ | ⟨m, hm, mode, rfl⟩
    · cases hn
    · have hindirect : (Descriptor.through m.name mode).bare.map ≠ .direct := by
        rw [hn]
        exact MapRef.noConfusion
      obtain rfl : Name.bare m.name = n :=
        MapRef.map.inj ((Descriptor.bare_through hindirect).symm.trans hn)
      rw [← findMap?_isSome, findMap?_declared hmaps hm hmaps']
      rfl

/-- **Names that refer to something go on doing so.** Let every name in the given sets, maps and
loops be the raw name of one of the sets or maps. Then the sets are never refused for a name that is
not declared. If all are accepted, in whatever order and with whatever other calls, all references
are in order, and the set that a map or a loop names is the one stored set that was declared under
the same raw name, with its sizes and its superset: no other set becomes alike. -/
theorem selfContained_resolves (hself : SelfContained sets maps loops) (c : Chain) :
    (∀ e, c.declareSets sets = .error e →
      ∀ name message, e.report ≠ .reference .undeclaredSet name message) ∧
    ∀ (calls : List Call) (c' : Chain), Declares calls sets maps loops →
      calls.foldlM apply c = .ok c' →
      c'.checkReferences = .ok () ∧
      (∀ r ∈ sets, ∀ r' ∈ sets, Name.bare r.name = Name.bare r'.name → r = r') ∧
      (∀ (i : Nat) (m : MeshMap), maps[i]? = some m → ∃ m', c'.maps[i]? = some m' ∧
        ∀ r ∈ sets,
          (r.name = m.source → c'.sets.filter (fun s => decide (s.name = m'.source)) = [r.bare]) ∧
          (r.name = m.target →
            c'.sets.filter (fun s => decide (s.name = m'.target)) = [r.bare])) ∧
      ∀ (i : Nat) (l : Loop), loops[i]? = some l → ∃ l', c'.loops[i]? = some l' ∧
        ∀ r ∈ sets, r.name = l.set →
          c'.sets.filter (fun s => decide (s.name = l'.set)) = [r.bare] := by
  refine ⟨fun e he name message => ?_, fun calls c' hcalls hrun => ?_⟩
  · rcases declareSets_error hself.supersets he with ⟨i, rfl⟩ | ⟨n, rfl⟩ | ⟨n, rfl⟩ <;>
      exact Report.noConfusion
  · obtain ⟨⟨c₁, c₂, hsets, hstored⟩, ⟨c₃, c₄, hmaps, hmaps'⟩, ⟨c₅, c₆, hloops, hloops'⟩⟩ :=
      hcalls.parts hrun
    rw [(declareLoops_eq_ok hloops).2] at hloops'
    have hunique {r : MeshSet} (hr : r ∈ sets) {name : String} (hname : r.name = name) :=
      filter_declaredSets hsets hstored hr hname
    refine ⟨checkReferences_eq_ok.2 (hself.resolved hsets hstored hmaps hmaps' hloops'), ?_, ?_, ?_⟩
    · intro r hr r' hr' hname
      exact bare_injOn_declaredSets hsets hr hr' hname
    · intro i m hm
      rw [(declareMaps_eq_ok hmaps).2] at hmaps'
      refine ⟨m.bare, by rw [hmaps', List.getElem?_map, hm]; rfl, fun r hr => ⟨?_, ?_⟩⟩ <;>
        exact fun hname => hunique hr hname
    · intro i l hl
      refine ⟨l.bare, by rw [hloops', List.getElem?_map, hl]; rfl, fun r hr hname => ?_⟩
      exact hunique hr hname

/-- Sets under decorated names, a subset in front of its superset. -/
def decoratedSets : List MeshSet :=
  [{ name := "mesh.border", core := 2, superset := some "#edges" },
    { name := "#edges", core := 20, exec := 3 }, { name := "mesh.cells/", core := 8 }]

/-- Maps between them, one of which looks like the keyword for direct access. -/
def decoratedMaps : List MeshMap :=
  [⟨"op2.DIRECT", "#edges", "mesh.cells/", [0, 1]⟩, ⟨"e2c#", "#edges", "mesh.cells/", [0]⟩]

/-- A loop over one of the sets, with all kinds of access. -/
def decoratedLoops : List Loop :=
  [⟨"flux", "mesh.border",
    [.through "op2.DIRECT" .read, .through "e2c#" .increment, .direct .write]⟩]

/-- The loops come first, and other calls between. -/
def decoratedCalls : List Call :=
  [.declareLoops decoratedLoops, .setRank 1, .declareSets decoratedSets, .declareMaps decoratedMaps]

theorem selfContained_resolves_decorated : ∃ c' m' l',
    decoratedCalls.foldlM apply (new "air") = .ok c' ∧ c'.checkReferences = .ok () ∧
    c'.maps[1]? = some m' ∧
    c'.sets.filter (fun s => decide (s.name = m'.source)) =
      [{ name := "edges", core := 20, exec := 3 }] ∧
    c'.loops[0]? = some l' ∧
    c'.sets.filter (fun s => decide (s.name = l'.set)) =
      [{ name := "border", core := 2, superset := some "edges" }] := by
  have hself : SelfContained decoratedSets decoratedMaps decoratedLoops := by
    refine ⟨?_, ?_, ?_, ?_⟩
    · simp [decoratedSets]
    · simp [decoratedSets, decoratedMaps]
    · simp [decoratedSets, decoratedLoops]
    · rw [decoratedLoops, List.forall_mem_singleton, List.forall_mem_cons, List.forall_mem_cons,
        List.forall_mem_singleton]
      exact ⟨.inr ⟨_, List.mem_cons_self, _, rfl⟩,
        .inr ⟨_, List.mem_cons_of_mem _ List.mem_cons_self, _, rfl⟩, .inl ⟨_, rfl⟩⟩
  have hcalls : Declares decoratedCalls decoratedSets decoratedMaps decoratedLoops := by
    refine ⟨?_, ?_, ?_⟩ <;> simp [decoratedCalls]
  have hrun : decoratedCalls.foldlM apply (new "air") =
      .ok ((new "air").afterAll decoratedCalls) := by cbv
  obtain ⟨hreferences, -, hmaps, hloops⟩ :=
    (selfContained_resolves hself (new "air")).2 decoratedCalls _ hcalls hrun
  obtain ⟨m', hm', hsource⟩ := hmaps 1 _ rfl
  obtain ⟨l', hl', hset⟩ := hloops 0 _ rfl
  have hedges := (hsource _ (List.mem_cons_of_mem _ List.mem_cons_self)).1 rfl
  have hborder := hset _ List.mem_cons_self rfl
  have hbare : decoratedSets.map (·.bare) =
      [{ name := "border", core := 2, superset := some "edges" },
        { name := "edges", core := 20, exec := 3 }, { name := "cells", core := 8 }] := by decide
  simp only [decoratedSets, List.map_cons, List.cons.injEq] at hbare
  rw [hbare.2.1] at hedges
  rw [hbare.1] at hborder
  exact ⟨_, m', l', hrun, hreferences, hm', hedges, hl', hborder⟩

end Chain

end SparseTiling
