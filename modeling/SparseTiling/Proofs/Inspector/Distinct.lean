import SparseTiling.Proofs.Code.Scope

/-!
# The variables of an inspector

All variables of an inspector stand in one scope. Sets and maps keep the names they were
given; descriptor lists, mesh maps and partitionings have variables whose names are built
from given ones; the rest is the same in every inspector. Names are checked within the sets
and within the maps, and nowhere else: whether a variable is declared twice is up to the
names that were given.

* `declaredNames_body`: the names that an inspector declares, kind by kind.
* `numbered_inj`, `nodup_listVars`: descriptor lists never have the same name.
* `nodup_partVars_iff`: when the variables of partitionings differ.
* `Apart`: the given names keep apart from each other and from all other variables.
* `Regular`: the names that differ in every chain.
* `declares_once_iff`: under names that keep apart, and no others, each variable is declared once.
-/

namespace SparseTiling

open Code

/-! ## Names with a number -/

/-- A name and a number after an underscore can be told apart again. -/
theorem numbered_inj {x y : String} {i j : Nat}
    (h : x ++ "_" ++ toString i = y ++ "_" ++ toString j) : x = y ∧ i = j := by
  have hdigits : ∀ (n : Nat), ∀ d ∈ (Nat.toDigits 10 n).reverse, d.isDigit = true := fun n d hd =>
    Binary64.isDigit_toDigits (List.mem_reverse.1 hd)
  have hback : ∀ (z : String) (n : Nat), (z ++ "_" ++ toString n).toList.reverse =
      (Nat.toDigits 10 n).reverse ++ '_' :: z.toList.reverse := by
    intro z n
    simp
  have hends : ∀ z : String, Text.Ends Char.isDigit ('_' :: z.toList.reverse) := by
    rintro z d rest heq
    obtain ⟨rfl, -⟩ := List.cons.inj heq
    decide
  have hrev := congrArg (fun z => z.toList.reverse) h
  simp only [hback] at hrev
  -- read from the end, the digits stop at the underscore
  have hnumber := congrArg (List.takeWhile Char.isDigit) hrev
  rw [Text.takeWhile_append_ends (hdigits i) (hends x),
    Text.takeWhile_append_ends (hdigits j) (hends y), List.reverse_inj] at hnumber
  have hrest := congrArg (List.dropWhile Char.isDigit) hrev
  rw [Text.dropWhile_append_ends (hdigits i) (hends x),
    Text.dropWhile_append_ends (hdigits j) (hends y)] at hrest
  refine ⟨String.toList_inj.1 (List.reverse_inj.1 (List.cons.inj hrest).2), ?_⟩
  rw [← Binary64.digitsValue_toDigits i, hnumber, Binary64.digitsValue_toDigits]

theorem descriptorsName_inj {l m : Loop} {i j : Nat}
    (h : l.descriptorsName i = m.descriptorsName j) : i = j := by
  have hsplit : ∀ (k : Loop) (n : Nat),
      k.descriptorsName n = k.name ++ "_Desc" ++ "_" ++ toString n := by
    intro k n
    rw [Loop.descriptorsName, show "_Desc_" = "_Desc" ++ "_" from rfl, ← String.append_assoc]
  rw [hsplit, hsplit] at h
  exact (numbered_inj h).2

namespace Inspector

variable {c : Chain} {s : Settings}

/-! ## Kinds of variables -/

def setNames (c : Chain) : List String := c.sets.map (·.name)

def mapNames (c : Chain) : List String := c.maps.map (·.name)

/-- The names that a chain gives to variables as they are. -/
def givenNames (c : Chain) : List String := setNames c ++ mapNames c

/-- The variables of the descriptor lists. -/
def listVars (c : Chain) : List String := c.loops.zipIdx.map fun l => l.1.descriptorsName l.2

/-- The names of the mesh maps in use. -/
def meshMapNames (c : Chain) (s : Settings) : List String := (meshMapRows c s).map (·.1.name)

/-- The variables of the mesh maps in use. -/
def meshVars (c : Chain) (s : Settings) : List String :=
  (meshMapRows c s).map fun m => meshMapVar m.1

/-- The sets with a partitioning in use. -/
def partitionedSets (c : Chain) : List String := (partitioningRows c).map (·.1.set)

/-- The variables of the partitionings in use: the parts of each, and the map to them. -/
def partVars (c : Chain) : List String :=
  (partitioningRows c).flatMap fun p => [p.1.partsName, p.1.mapName]

/-- The variables whose names are built from given ones. -/
def builtVars (c : Chain) (s : Settings) : List String := listVars c ++ meshVars c s ++ partVars c

/-- The variables of every inspector. -/
def fixedVars : List String :=
  [meshMapList, partitioningList, "avgTileSize", "prefetchHalo", "ignoreWAR", inspVar,
    "seedTilePoint", execVar]

/-- The names that every inspector uses. -/
def reserved : List String := fixedVars ++ tableParams

/-! ## The names in a body -/

theorem declaredNames_chainSection :
    declaredNames (chainSection c) = givenNames c ++ listVars c := by
  have hsets : declaredNames (setDecls c) = setNames c := by
    rw [setDecls, declaredNames_map (fun s => s.1.name) _ (fun _ => rfl) (fun _ => rfl)]
    exact map_zipIdx _ _
  have hmaps : declaredNames (mapDecls c) = mapNames c := by
    rw [mapDecls, declaredNames_map (fun m => m.1.name) _ (fun _ => rfl) (fun _ => rfl)]
    exact map_zipIdx _ _
  have hlists : declaredNames (descDecls c) = listVars c :=
    declaredNames_map _ _ (fun _ => rfl) (fun _ => rfl)
  rw [chainSection, List.cons_append, List.cons_append, declaredNames_cons rfl,
    declaredNames_append, declaredNames_append, hsets, hmaps, hlists]
  rfl

theorem declaredNames_meshSection :
    declaredNames (meshSection c s) = meshMapList :: meshVars c s := by
  have hvars : declaredNames (meshMapStmts c s) = meshVars c s := by
    rw [meshMapStmts, declaredNames_append,
      declaredNames_map (fun m => meshMapVar m.1) _ (fun _ => rfl) (fun _ => rfl),
      declaredNames_eq_nil, List.append_nil]
    · rfl
    · intro t ht
      obtain ⟨m, -, rfl⟩ := List.mem_map.1 ht
      exact ⟨rfl, rfl⟩
  rw [meshSection, declaredNames_cons rfl, declaredNames_cons rfl, hvars]
  rfl

theorem declaredNames_partSection :
    declaredNames (partSection c) = partitioningList :: partVars c := by
  have hvars : declaredNames ((partitioningRows c).flatMap fun p => partitioningDecls p.1 p.2) =
      partVars c := by
    unfold partVars
    induction partitioningRows c with
    | nil => rfl
    | cons p rows ih =>
      rw [List.flatMap_cons, declaredNames_append, ih, List.flatMap_cons]
      rfl
  have hinserts : declaredNames
      ((partitioningRows c).map fun p => insert partitioningList p.1.mapName) = [] := by
    apply declaredNames_eq_nil
    intro t ht
    obtain ⟨p, -, rfl⟩ := List.mem_map.1 ht
    exact ⟨rfl, rfl⟩
  rw [partSection, declaredNames_cons rfl, declaredNames_cons rfl, partitioningStmts,
    declaredNames_append, hvars, hinserts, List.append_nil]
  rfl

theorem declaredNames_loopStmts : declaredNames (loopStmts c) = [] := by
  apply declaredNames_eq_nil
  intro t ht
  obtain ⟨l, -, rfl⟩ := List.mem_map.1 ht
  exact ⟨rfl, rfl⟩

/-- The report declares nothing, not even inside its block. -/
theorem declaredNames_reportStmts : declaredNames (reportStmts s) = [] := by
  unfold reportStmts
  cases s.debug with
  | none => rfl
  | some level => cases s.coordinates <;> rfl

/-- The names that an inspector declares, kind by kind. -/
theorem declaredNames_body (seed : Nat) :
    (declaredNames (body c s seed)).Perm (givenNames c ++ builtVars c s ++ fixedVars) := by
  have hbody : declaredNames (body c s seed) = givenNames c ++ listVars c ++
      (meshMapList :: meshVars c s ++ (partitioningList :: partVars c ++
        ["avgTileSize", "prefetchHalo", "ignoreWAR", inspVar, "seedTilePoint", execVar])) := by
    rw [body_eq]
    simp only [declaredNames_append, declaredNames_cons (s := .blank) rfl,
      declaredNames_chainSection, declaredNames_meshSection, declaredNames_partSection,
      declaredNames_loopStmts, declaredNames_reportStmts]
    rfl
  rw [hbody, List.perm_iff_count]
  intro n
  simp only [builtVars, fixedVars, List.count_append, List.count_cons, List.count_nil]
  omega

/-! ## Names that never meet -/

/-- Descriptor lists never have the same name, whatever the loops are called. -/
theorem nodup_listVars : (listVars c).Nodup :=
  nodup_map_zipIdx (fun _ _ h => descriptorsName_inj h) c.loops

/-- Mesh maps of different names have different variables. -/
theorem nodup_meshVars (h : (meshMapNames c s).Nodup) : (meshVars c s).Nodup := by
  have hvars : meshVars c s = (meshMapNames c s).map ("mm_" ++ ·) := by
    rw [meshVars, meshMapNames, List.map_map]
    rfl
  rw [hvars]
  exact h.map fun a b hab => by simpa using hab

/-- Partitionings of different sets have different variables, unless a set is called like
another one on the way to its parts. -/
theorem nodup_partVars_iff (h : (partitionedSets c).Nodup) :
    (partVars c).Nodup ↔ ∀ a ∈ partitionedSets c, ∀ b ∈ partitionedSets c, a ≠ b ++ "_to" := by
  have hperm : (partVars c).Perm ((partitionedSets c).map (· ++ "_partitioning") ++
      (partitionedSets c).map (· ++ "_to_partitioning")) := by
    have hsplit := List.flatMap_append_perm (partitioningRows c) (fun p => [p.1.partsName])
      (fun p => [p.1.mapName])
    rw [← List.map_eq_flatMap, ← List.map_eq_flatMap] at hsplit
    rw [partitionedSets, List.map_map, List.map_map]
    exact hsplit.symm
  have hparts : ((partitionedSets c).map (· ++ "_partitioning")).Nodup :=
    h.map fun a b hab => by simpa using hab
  have hmaps : ((partitionedSets c).map (· ++ "_to_partitioning")).Nodup :=
    h.map fun a b hab => by simpa using hab
  have heq : ∀ a b : String, a ++ "_partitioning" = b ++ "_to_partitioning" ↔ a = b ++ "_to" := by
    intro a b
    rw [show "_to_partitioning" = "_to" ++ "_partitioning" from rfl, ← String.append_assoc]
    simp
  rw [hperm.nodup_iff, List.nodup_append]
  simp only [hparts, hmaps, true_and, List.forall_mem_map, ne_eq, heq]

/-- The variable of a descriptor list ends in a digit. -/
theorem last_of_mem_listVars {n : String} (h : n ∈ listVars c) :
    ∃ d, n.toList.getLast? = some d ∧ d.isDigit = true := by
  obtain ⟨l, -, rfl⟩ := List.mem_map.1 h
  have hne : Nat.toDigits 10 l.2 ≠ [] := by simp
  refine ⟨(Nat.toDigits 10 l.2).getLast hne, ?_, Binary64.isDigit_toDigits (List.getLast_mem hne)⟩
  rw [Loop.descriptorsName, String.toList_append, Binary64.toList_toString_nat,
    List.getLast?_append_of_ne_nil _ hne, List.getLast?_eq_some_getLast]

theorem last_of_mem_partVars {n : String} (h : n ∈ partVars c) : n.toList.getLast? = some 'g' := by
  obtain ⟨p, -, hn⟩ := List.mem_flatMap.1 h
  simp only [List.mem_cons, List.not_mem_nil, or_false] at hn
  rcases hn with rfl | rfl
  · simp [Partitioning.partsName]
  · simp [Partitioning.mapName]

theorem first_of_mem_meshVars {n : String} (h : n ∈ meshVars c s) :
    n.toList.take 3 = ['m', 'm', '_'] := by
  obtain ⟨m, -, rfl⟩ := List.mem_map.1 h
  simp [meshMapVar]

/-- No reserved name ends or starts like a variable whose name is built. -/
theorem ends_of_mem_reserved {n : String} (h : n ∈ reserved) :
    (∃ d, n.toList.getLast? = some d ∧ d.isDigit = false ∧ d ≠ 'g') ∧
      n.toList.take 3 ≠ ['m', 'm', '_'] := by
  simp only [reserved, fixedVars, tableParams, List.mem_append, List.mem_cons, List.not_mem_nil,
    or_false] at h
  rcases h with (rfl | rfl | rfl | rfl | rfl | rfl | rfl | rfl) |
    (rfl | rfl | rfl | rfl | rfl | rfl | rfl) <;>
  exact ⟨⟨_, rfl, by decide⟩, by decide⟩

theorem nodup_reserved : reserved.Nodup := by
  decide

theorem disjoint_listVars_partVars : List.Disjoint (listVars c) (partVars c) := by
  intro n hlist hpart
  obtain ⟨d, hd, hdigit⟩ := last_of_mem_listVars hlist
  rw [last_of_mem_partVars hpart] at hd
  obtain rfl := Option.some.inj hd
  exact absurd hdigit (by decide)

theorem disjoint_builtVars_reserved : List.Disjoint (builtVars c s) reserved := by
  intro n hbuilt hres
  obtain ⟨⟨d, hlast, hdigit, hg⟩, hfirst⟩ := ends_of_mem_reserved hres
  simp only [builtVars, List.mem_append] at hbuilt
  rcases hbuilt with (hlist | hmesh) | hpart
  · obtain ⟨e, he, hedigit⟩ := last_of_mem_listVars hlist
    obtain rfl := Option.some.inj (hlast.symm.trans he)
    rw [hdigit] at hedigit
    contradiction
  · exact hfirst (first_of_mem_meshVars hmesh)
  · exact hg (Option.some.inj (hlast.symm.trans (last_of_mem_partVars hpart)))

/-! ## Names that keep apart -/

/-- The given names keep apart from each other and from all other variables. -/
structure Apart (c : Chain) (s : Settings) : Prop where
  /-- No set is called like a map. -/
  families : ∀ n ∈ setNames c, n ∉ mapNames c
  /-- No set or map is called like a parameter or a variable of every inspector. -/
  reserved : ∀ n ∈ givenNames c, n ∉ reserved
  /-- No set or map is called like a variable whose name is built. -/
  built : ∀ n ∈ givenNames c, n ∉ builtVars c s
  /-- No mesh map is called like a descriptor list or a partitioning, under its mark. -/
  meshMaps : ∀ n ∈ meshVars c s, n ∉ listVars c ++ partVars c
  /-- No partitioned set is called like another one on the way to its parts. -/
  partitionings : ∀ a ∈ partitionedSets c, ∀ b ∈ partitionedSets c, a ≠ b ++ "_to"

/-- The names built for a chain differ if those of its mesh maps and partitionings do. -/
theorem nodup_builtVars_iff (hmesh : (meshMapNames c s).Nodup) (hpart : (partitionedSets c).Nodup) :
    (builtVars c s).Nodup ↔ List.Disjoint (meshVars c s) (listVars c ++ partVars c) ∧
      ∀ a ∈ partitionedSets c, ∀ b ∈ partitionedSets c, a ≠ b ++ "_to" := by
  rw [builtVars, List.nodup_append', List.nodup_append', nodup_partVars_iff hpart,
    List.disjoint_append_left, List.disjoint_append_right]
  constructor
  · rintro ⟨⟨-, -, hlists⟩, hto, -, hparts⟩
    exact ⟨⟨hlists.symm, hparts⟩, hto⟩
  · rintro ⟨⟨hlists, hparts⟩, hto⟩
    exact ⟨⟨nodup_listVars, nodup_meshVars hmesh, hlists.symm⟩, hto, disjoint_listVars_partVars,
      hparts⟩

/-- Each variable is declared once, and none is called like a parameter. -/
def DeclaresOnce (params : List String) (body : List Stmt) : Prop :=
  (declaredNames body).Nodup ∧ ∀ n ∈ declaredNames body, n ∉ params

theorem declaresOnce_body_iff (hc : c.Sound) (hmesh : (meshMapNames c s).Nodup)
    (hpart : (partitionedSets c).Nodup) (seed : Nat) :
    DeclaresOnce ((params c).map (·.name)) (body c s seed) ↔ Apart c s := by
  have hreserved : fixedVars.Nodup ∧ tableParams.Nodup ∧ List.Disjoint fixedVars tableParams :=
    List.nodup_append'.1 nodup_reserved
  have hsets : (setNames c).Nodup := hc.setNames.distinct
  have hmaps : (mapNames c).Nodup := hc.mapNames.distinct
  -- the parameters are names of the same scope
  have hscope : DeclaresOnce ((params c).map (·.name)) (body c s seed) ↔
      (givenNames c ++ (builtVars c s ++ Inspector.reserved)).Nodup := by
    have hperm := (declaredNames_body (c := c) (s := s) seed).append_right tableParams
    have hassoc : givenNames c ++ builtVars c s ++ fixedVars ++ tableParams =
        givenNames c ++ (builtVars c s ++ Inspector.reserved) := by
      simp [Inspector.reserved]
    rw [← hassoc, ← hperm.nodup_iff, List.nodup_append', params_names, DeclaresOnce]
    constructor
    · rintro ⟨hnodup, hparams⟩
      exact ⟨hnodup, hreserved.2.1, hparams⟩
    · rintro ⟨hnodup, -, hparams⟩
      exact ⟨hnodup, hparams⟩
  have hgiven : (givenNames c).Nodup ↔ List.Disjoint (setNames c) (mapNames c) := by
    rw [givenNames, List.nodup_append']
    exact ⟨fun h => h.2.2, fun h => ⟨hsets, hmaps, h⟩⟩
  rw [hscope, List.nodup_append', List.nodup_append', hgiven, nodup_builtVars_iff hmesh hpart]
  constructor
  · rintro ⟨hfamilies, ⟨⟨hmeshes, hparts⟩, -, -⟩, hgivens⟩
    obtain ⟨hbuilt, hres⟩ := List.disjoint_append_right.1 hgivens
    exact ⟨hfamilies, hres, hbuilt, hmeshes, hparts⟩
  · intro h
    exact ⟨h.families, ⟨⟨h.meshMaps, h.partitionings⟩, nodup_reserved,
      disjoint_builtVars_reserved⟩, List.disjoint_append_right.2 ⟨h.built, h.reserved⟩⟩

/-- What differs in every chain: sets, maps and descriptor lists among themselves, and names that
are built from those that every inspector uses. -/
structure Regular (c : Chain) (s : Settings) : Prop where
  sets : (setNames c).Nodup
  maps : (mapNames c).Nodup
  lists : (listVars c).Nodup
  built : ∀ n ∈ builtVars c s, n ∉ reserved

theorem regular_of_sound (hc : c.Sound) : Regular c s :=
  ⟨hc.setNames.distinct, hc.mapNames.distinct, nodup_listVars, disjoint_builtVars_reserved⟩

/-- **Each variable once, exactly if the given names keep apart.** Take a chain that calls
lead to, and any settings, such that mesh maps in use have different names and no set has
two partitionings in use. If an inspector is generated, it declares each variable once and
none like a parameter if and only if the names given to sets, maps, mesh maps and loops keep
apart from each other and from the names that every inspector uses. What else could clash never
does. -/
theorem declares_once_iff {name : String} {calls : List Chain.Call} {s : Settings} {e : Emission}
    (h : generate ((Chain.new name).afterAll calls) s = .ok e)
    (hmesh : (meshMapNames ((Chain.new name).afterAll calls) s).Nodup)
    (hpart : (partitionedSets ((Chain.new name).afterAll calls)).Nodup) :
    ∃ program body, programOf ((Chain.new name).afterAll calls) s = .ok program ∧
      e.source = Code.render program ∧ bodyOf program = some body ∧
      Regular ((Chain.new name).afterAll calls) s ∧
      (DeclaresOnce ((params ((Chain.new name).afterAll calls)).map (·.name)) body ↔
        Apart ((Chain.new name).afterAll calls) s) := by
  obtain ⟨seed, hcheck, he⟩ := bind_eq_ok h
  obtain rfl := Except.ok.inj he
  have hsound := Chain.sound_afterAll name calls
  exact ⟨program _ s seed, body _ s seed, programOf_of_check hcheck, rfl, bodyOf_program seed,
    regular_of_sound hsound, declaresOnce_body_iff hsound hmesh hpart seed⟩

theorem declares_once_edges :
    ∃ e program body, generate ((Chain.new "airfoil").afterAll edgeCalls) edgeSettings = .ok e ∧
      programOf ((Chain.new "airfoil").afterAll edgeCalls) edgeSettings = .ok program ∧
      e.source = Code.render program ∧ bodyOf program = some body ∧
      Regular ((Chain.new "airfoil").afterAll edgeCalls) edgeSettings ∧
      DeclaresOnce ((params ((Chain.new "airfoil").afterAll edgeCalls)).map (·.name)) body := by
  have hcheck : check ((Chain.new "airfoil").afterAll edgeCalls) edgeSettings = .ok 1 := by cbv
  have hsets : setNames ((Chain.new "airfoil").afterAll edgeCalls) =
      ["edges", "cells", "border"] := by cbv
  have hmaps : mapNames ((Chain.new "airfoil").afterAll edgeCalls) = ["edge2cell"] := by cbv
  have hlists : listVars ((Chain.new "airfoil").afterAll edgeCalls) =
      ["flux_Desc_0", "flux_Desc_1"] := by cbv
  have hmeshes : meshVars ((Chain.new "airfoil").afterAll edgeCalls) edgeSettings = ["mm_c2e"] := by
    cbv
  have hparts : partVars ((Chain.new "airfoil").afterAll edgeCalls) =
      ["cells_partitioning", "cells_to_partitioning"] := by cbv
  have hpartitioned : partitionedSets ((Chain.new "airfoil").afterAll edgeCalls) = ["cells"] := by
    cbv
  have hnames : meshMapNames ((Chain.new "airfoil").afterAll edgeCalls) edgeSettings = ["c2e"] := by
    cbv
  have hapart : Apart ((Chain.new "airfoil").afterAll edgeCalls) edgeSettings := by
    refine ⟨?_, ?_, ?_, ?_, ?_⟩
    · rw [hsets, hmaps]
      decide
    · rw [givenNames, hsets, hmaps]
      decide
    · rw [givenNames, builtVars, hsets, hmaps, hlists, hmeshes, hparts]
      decide
    · rw [hmeshes, hlists, hparts]
      decide
    · rw [hpartitioned]
      decide
  obtain ⟨e, he, -⟩ := generate_of_check hcheck
  obtain ⟨program, body, hprogram, hsource, hbody, hregular, hiff⟩ :=
    declares_once_iff he (by rw [hnames]; decide) (by rw [hpartitioned]; decide)
  exact ⟨e, program, body, he, hprogram, hsource, hbody, hregular, hiff.2 hapart⟩

/-- A set and a map of one name, and a set called like a parameter. -/
def clashingCalls : List Chain.Call :=
  [.declareSets [{ name := "cells", core := 4 }, { name := "rank", core := 2 }],
    .declareMaps [{ name := "cells", source := "cells", target := "rank", values := [0, 1, 0, 1] }],
    .declareLoops [{ name := "flux", set := "cells", descriptors := [.through "cells" .read] }]]

/-- The set and the map have one variable, and a variable is called like a parameter. -/
theorem declares_cells_twice :
    ∃ e program body, generate ((Chain.new "mesh").afterAll clashingCalls) {} = .ok e ∧
      programOf ((Chain.new "mesh").afterAll clashingCalls) {} = .ok program ∧
      e.source = Code.render program ∧ bodyOf program = some body ∧
      ¬(declaredNames body).Nodup ∧ "rank" ∈ declaredNames body ∧
      "rank" ∈ (params ((Chain.new "mesh").afterAll clashingCalls)).map (·.name) := by
  have hcheck : check ((Chain.new "mesh").afterAll clashingCalls) {} = .ok 0 := by cbv
  have hgiven : givenNames ((Chain.new "mesh").afterAll clashingCalls) =
      ["cells", "rank", "cells"] := by cbv
  have hnames := declaredNames_body (c := (Chain.new "mesh").afterAll clashingCalls) (s := {}) 0
  rw [List.append_assoc, hgiven] at hnames
  obtain ⟨e, he, hsource⟩ := generate_of_check hcheck
  refine ⟨e, _, _, he, programOf_of_check hcheck, hsource, bodyOf_program 0, ?_, ?_, ?_⟩
  · rw [hnames.nodup_iff]
    intro h
    exact absurd (List.nodup_append.1 h).1 (by decide)
  · exact hnames.mem_iff.2 (List.mem_append_left _ (by decide))
  · rw [params_names]
    decide

end Inspector

end SparseTiling
