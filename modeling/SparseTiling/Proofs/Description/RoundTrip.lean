import SparseTiling.Description.Read
import SparseTiling.Description.Write
import SparseTiling.Proofs.Json.Collections
import SparseTiling.Proofs.Json.Yields

/-!
# Descriptions read back

A description that is written and read again is the same, up to the maps of its
descriptors: they are written as plain names, and a name is made bare when it is read.
Reading once settles most of that, but not all: `mesh.DIRECT` is read as a map of the name
`DIRECT`, and that name is read as direct access. Declaring the loops takes both for direct
access, so neither the text nor the session depends on it.

* `Description.reread`: a description with the maps of its descriptors made bare.
* `reads_description`: a description is read back as that.
* `MapRef.Named`, `yields_description`: the maps of descriptors that were read come from names.
* `Description.read_write`: what writing and reading keeps.
-/

namespace SparseTiling

open Json (ReadsAs Fills)

/-! ## Reading a name again -/

/-- The reference that the written form of a reference is read as. -/
def MapRef.reread (r : MapRef) : MapRef := .named r.text

def Descriptor.reread (d : Descriptor) : Descriptor := { d with map := d.map.reread }

def Loop.reread (l : Loop) : Loop := { l with descriptors := l.descriptors.map (·.reread) }

/-- The description in which every map of a descriptor is the one that its written form
is read as. -/
def Description.reread (d : Description) : Description :=
  { d with loops := d.loops.map (·.reread) }

/-- No doubles are written: there are no coordinates, or only an empty list of them. -/
def Description.WithoutDoubles (d : Description) : Prop :=
  ∀ c, d.coordinates = some c → c.values = []

/-! ## Each part is read back -/

namespace Json

/-- Items that are read as themselves. -/
theorem reads_list_self {α : Type} {r : Reader α} {f : α → Json} (h : ∀ x, ReadsAs r (f x) x)
    (xs : List α) : ReadsAs r.list (.list (xs.map f)) xs := by
  have hlist := reads_list (g := id) fun x (_ : x ∈ xs) => h x
  rwa [List.map_id] at hlist

theorem reads_indices (values : List Int32) : ReadsAs .indices (indices values) values :=
  reads_list_self reads_int32 values

theorem write_int_ne_null (value : Int) (level : Nat) (s : List Char) :
    (Json.int value).write level ≠ 'n' :: s := by
  intro he
  rw [write] at he
  cases value with
  | ofNat n =>
    rw [Binary64.toList_toString_ofNat] at he
    have hn := Binary64.isDigit_toDigits (n := n) (c := 'n') (by simp [he])
    simp at hn
  | negSucc n =>
    rw [Binary64.toList_toString_negSucc] at he
    simp at he

theorem reads_optional_string (o : Option String) :
    ReadsAs (.optional .string) (.optional .string o) o :=
  reads_optional (fun t _ => reads_string t) fun t level s _ => by simp [write_string]

theorem reads_optional_uint32 (o : Option UInt32) :
    ReadsAs (.optional .uint32) (.optional (fun n => .nat n.toNat) o) o :=
  reads_optional (fun n _ => reads_uint32 n) fun n level s _ => write_int_ne_null n.toNat level s

theorem reads_optional_int64 (o : Option Int64) :
    ReadsAs (.optional .int64) (.optional (fun n => .int n.toInt) o) o :=
  reads_optional (fun n _ => reads_int64 n) fun n level s _ => write_int_ne_null n.toInt level s

end Json

open Json

theorem reads_meshSet (s : MeshSet) : ReadsAs MeshSet.reader s.toJson s :=
  reads_record
    (.needed (reads_string s.name) <| .needed (reads_uint32 s.core) <|
      .defaulted (reads_uint32 s.exec) <| .defaulted (reads_uint32 s.nonexec) <|
      .defaulted (reads_optional_string s.superset) <| .nil _)
    (by decide)

theorem reads_meshMap (m : MeshMap) : ReadsAs MeshMap.reader m.toJson m :=
  reads_record
    (.needed (reads_string m.name) <| .needed (reads_string m.source) <|
      .needed (reads_string m.target) <| .needed (reads_indices m.values) <| .nil _)
    (by decide)

theorem reads_descriptor (d : Descriptor) : ReadsAs Descriptor.reader d.toJson d.reread :=
  reads_record
    (.needed (reads_string d.map.text) <|
      .needed (reads_word (AccessMode.ofKeyword?_keyword d.mode)) <| .nil _)
    (by decide)

theorem reads_loop (l : Loop) : ReadsAs Loop.reader l.toJson l.reread :=
  reads_record
    (.needed (reads_string l.name) <| .needed (reads_string l.set) <|
      .needed (reads_list fun d _ => reads_descriptor d) <| .nil _)
    (by decide)

theorem reads_partitioning (p : Partitioning) : ReadsAs Partitioning.reader p.toJson p :=
  reads_record
    (.needed (reads_string p.set) <| .needed (reads_indices p.values) <| .nil _)
    (by decide)

theorem reads_coordinates {c : Coordinates} (h : c.values = []) :
    ReadsAs Coordinates.reader c.toJson c := by
  have hvalues : ReadsAs (.list .double) (.list (c.values.map .double)) c.values := by
    rw [h]
    exact reads_list (f := .double) (g := id) fun x hx => absurd hx List.not_mem_nil
  exact reads_record
    (.needed (reads_string c.set) <| .needed hvalues <| .needed (reads_int64 c.arity) <| .nil _)
    (by decide)

theorem reads_hints (h : Hints) : ReadsAs Hints.reader h.toJson h :=
  reads_record
    (.defaulted (reads_bool h.ignoreWar) <| .defaulted (reads_optional_int64 h.seedLoop) <|
      .defaulted (reads_int64 h.prefetch) <| .defaulted (reads_optional_string h.coloring) <|
      .defaulted (reads_optional_string h.partitioning) <| .nil _)
    (by decide)

theorem reads_optional_coordinates {o : Option Coordinates} (h : ∀ c, o = some c → c.values = []) :
    ReadsAs (.optional Coordinates.reader) (.optional (·.toJson) o) o :=
  reads_optional (fun c hc => reads_coordinates (h c hc)) fun c level s _ => by
    simp [Coordinates.toJson, write_record]

/-- **A written description is read back,** with its maps made bare. -/
theorem reads_description {d : Description} (h : d.WithoutDoubles) :
    ReadsAs Description.reader d.toJson d.reread :=
  reads_record
    (.defaulted (reads_string d.name) <|
      .defaulted (reads_list_self reads_meshSet d.sets) <|
      .defaulted (reads_list_self reads_meshMap d.maps) <|
      .defaulted (reads_list fun l _ => reads_loop l) <|
      .defaulted (reads_list_self reads_partitioning d.partitionings) <|
      .defaulted (reads_list_self reads_meshMap d.meshMaps) <|
      .defaulted (reads_optional_coordinates h) <|
      .defaulted (reads_optional_uint32 d.tileSize) <|
      .defaulted (reads_optional_uint32 d.rank) <| .defaulted (reads_hints d.hints) <|
      .defaulted (reads_optional_string d.execution) <|
      .defaulted (reads_optional_string d.debug) <| .defaulted (reads_bool d.timing) <|
      .defaulted (reads_list_self reads_string d.kernels) <| .nil _)
    (by decide)

theorem read_write_eq {d : Description} (h : d.WithoutDoubles) :
    Description.read d.write = .ok d.reread :=
  read_render (reads_description h)

/-! ## When nothing changes -/

theorem MapRef.reread_eq_self_iff {r : MapRef} :
    r.reread = r ↔ ∀ n, r = .map n → Name.IsBare n ∧ n ≠ directKeyword := by
  cases r with
  | direct => simp [reread, text, named]
  | map n =>
    have hname : (∀ m, MapRef.map n = .map m → Name.IsBare m ∧ m ≠ directKeyword) ↔
        Name.IsBare n ∧ n ≠ directKeyword :=
      ⟨fun h => h n rfl, fun h m he => MapRef.map.inj he ▸ h⟩
    rw [hname, reread, text, named]
    by_cases hn : n = directKeyword
    · simp [hn]
    · rw [if_neg hn, MapRef.map.injEq]
      refine ⟨fun he => ⟨?_, hn⟩, fun h => Name.bare_eq_self h.1⟩
      rw [← he]
      exact Name.isBare_bare n

theorem map_eq_self_iff {α : Type} {f : α → α} {xs : List α} :
    xs.map f = xs ↔ ∀ x ∈ xs, f x = x := by
  have h := List.map_inj_left (l := xs) (f := f) (g := id)
  rwa [List.map_id] at h

theorem Loop.reread_eq_self_iff {l : Loop} :
    l.reread = l ↔ ∀ d ∈ l.descriptors, d.map.reread = d.map := by
  have hdescriptor : ∀ d : Descriptor, d.reread = d ↔ d.map.reread = d.map := by
    rintro ⟨map, mode⟩
    simp [Descriptor.reread]
  obtain ⟨name, set, descriptors⟩ := l
  simp [Loop.reread, map_eq_self_iff, hdescriptor]

theorem Description.reread_eq_self_iff {d : Description} :
    d.reread = d ↔ ∀ l ∈ d.loops, ∀ a ∈ l.descriptors, ∀ n, a.map = .map n →
      Name.IsBare n ∧ n ≠ directKeyword := by
  have hloops : d.reread = d ↔ d.loops.map (·.reread) = d.loops := by
    cases d
    simp [reread]
  rw [hloops, map_eq_self_iff]
  simp only [Loop.reread_eq_self_iff, MapRef.reread_eq_self_iff]

/-! ## What was read once -/

/-- A reference that comes from a name. -/
def MapRef.Named (r : MapRef) : Prop := ∃ name, r = .named name

/-- Another reading changes such a reference at most from a map with the name of the keyword
to direct access. -/
theorem MapRef.Named.reread_cases {r : MapRef} (h : r.Named) :
    r.reread = r ∨ r = .map directKeyword ∧ r.reread = .direct := by
  obtain ⟨name, rfl⟩ := h
  by_cases hname : name = directKeyword
  · exact .inl (by simp [reread, named, text, hname])
  · by_cases hbare : Name.bare name = directKeyword
    · exact .inr (by simp [reread, named, text, hname, hbare])
    · exact .inl (by simp [reread, named, text, hname, hbare, Name.bare_bare])

/-- The text of a reference that comes from a name survives another reading: direct access
is written as its keyword. -/
theorem MapRef.Named.text_reread {r : MapRef} (h : r.Named) : r.reread.text = r.text := by
  rcases h.reread_cases with hsame | ⟨hkeyword, hdirect⟩
  · rw [hsame]
  · rw [hdirect, hkeyword]
    rfl

/-- Declaring a loop sees no difference either. -/
theorem MapRef.Named.bare_reread {r : MapRef} (h : r.Named) : r.reread.bare = r.bare := by
  rcases h.reread_cases with hsame | ⟨hkeyword, hdirect⟩
  · rw [hsame]
  · rw [hdirect, hkeyword]
    simp [bare, named]

/-- All maps of the descriptors come from names. -/
def Loop.Named (l : Loop) : Prop := ∀ d ∈ l.descriptors, d.map.Named

def Description.Named (d : Description) : Prop := ∀ l ∈ d.loops, l.Named

section Readers

open Json.Reader

theorem yields_descriptor : Descriptor.reader.Yields fun d => d.map.Named := by
  refine yields_record ?_ ⟨directKeyword, by simp [MapRef.named]⟩
  simp only [List.forall_mem_cons, List.not_mem_nil, false_implies, implies_true, and_true]
  exact ⟨keeps_needed (yields_any _) fun _ name _ _ => ⟨name, rfl⟩,
    keeps_needed (yields_any _) fun _ _ _ h => h⟩

theorem yields_loop : Loop.reader.Yields Loop.Named := by
  refine yields_record ?_ (by simp [Loop.Named])
  simp only [List.forall_mem_cons, List.not_mem_nil, false_implies, implies_true, and_true]
  exact ⟨keeps_needed (yields_any _) fun _ _ _ h => h,
    keeps_needed (yields_any _) fun _ _ _ h => h,
    keeps_needed (yields_list yields_descriptor) fun _ _ h _ => h⟩

/-- Fields other than the loops do not touch them. -/
theorem keeps_named {α : Type} {key : String} {r : Json.Reader α}
    {set : Description → α → Description} (h : ∀ d x, (set d x).loops = d.loops) :
    Keeps Description.Named (.defaulted key r set) := by
  refine keeps_defaulted (yields_any r) fun d x _ hd => ?_
  unfold Description.Named
  rw [h d x]
  exact hd

theorem yields_description : Description.reader.Yields Description.Named := by
  have hloops : Keeps Description.Named
      (.defaulted "loops" (.list Loop.reader) fun d loops => { d with loops }) :=
    keeps_defaulted (yields_list yields_loop) fun _ _ h _ => h
  refine yields_record ?_ (by simp [Description.Named])
  simp only [List.forall_mem_cons, List.not_mem_nil, false_implies, implies_true, and_true]
  -- of the fourteen fields, only the loops matter
  refine ⟨?_, ?_, ?_, hloops, ?_, ?_, ?_, ?_, ?_, ?_, ?_, ?_, ?_, ?_⟩
  all_goals exact keeps_named fun _ _ => rfl

end Readers

theorem Loop.Named.toJson_reread {l : Loop} (h : l.Named) : l.reread.toJson = l.toJson := by
  have hdescriptors : (l.descriptors.map (·.reread)).map (·.toJson) =
      l.descriptors.map (·.toJson) := by
    rw [List.map_map]
    refine List.map_congr_left fun d hd => ?_
    simp [Descriptor.reread, Descriptor.toJson, (h d hd).text_reread]
  simp only [Loop.reread, Loop.toJson, hdescriptors]

theorem Loop.Named.bare_reread {l : Loop} (h : l.Named) : l.reread.bare = l.bare := by
  have hdescriptors : (l.descriptors.map (·.reread)).map (·.bare) = l.descriptors.map (·.bare) := by
    rw [List.map_map]
    refine List.map_congr_left fun d hd => ?_
    simp [Descriptor.reread, Descriptor.bare, (h d hd).bare_reread]
  simp only [Loop.reread, Loop.bare, hdescriptors]

namespace Description

variable {d : Description}

/-- The text of a description that was read survives another reading. -/
theorem Named.write_reread (h : d.Named) : d.reread.write = d.write := by
  have hloops : (d.loops.map (·.reread)).map (·.toJson) = d.loops.map (·.toJson) := by
    rw [List.map_map]
    exact List.map_congr_left fun l hl => (h l hl).toJson_reread
  simp only [write, toJson, reread, hloops]

/-- **The session of a description that was read survives another reading.** -/
theorem Named.session_reread (h : d.Named) : d.reread.session = d.session := by
  have hbare : (d.loops.map (·.reread)).map (·.bare) = d.loops.map (·.bare) := by
    rw [List.map_map]
    exact List.map_congr_left fun l hl => (h l hl).bare_reread
  have hloops : ∀ s : Session,
      s.declareLoops (d.loops.map (·.reread)) = s.declareLoops d.loops := by
    intro s
    simp only [Session.declareLoops, Session.onChain, Chain.declareLoops, hbare]
  have hprepare : d.reread.prepare = d.prepare := by
    simp only [prepare, reread, hloops]
    rfl
  simp only [session, hprepare]
  rfl

/-- **Descriptions survive being written and read.** Without doubles, a written description
is read back with the maps of its descriptors as their texts are read, which changes none
of them exactly if they have no marks and no dots and are not the keyword for direct
access. If the description was itself read from a text, another round changes neither its
text nor its session. -/
theorem read_write :
    (∀ d : Description, d.WithoutDoubles →
        Description.read d.write = .ok d.reread ∧
          (d.reread = d ↔ ∀ l ∈ d.loops, ∀ a ∈ l.descriptors, ∀ n, a.map = .map n →
            ('/' ∉ n.toList ∧ '#' ∉ n.toList ∧ '.' ∉ n.toList) ∧ n ≠ "DIRECT")) ∧
      ∀ (text : String) (d : Description), Description.read text = .ok d → d.WithoutDoubles →
        ∃ e, Description.read d.write = .ok e ∧ e.write = d.write ∧ e.session = d.session := by
  refine ⟨fun d hd => ⟨read_write_eq hd, ?_⟩, fun text d hread hd => ?_⟩
  · rw [reread_eq_self_iff]
    simp only [Name.isBare_iff, directKeyword]
  · have hnamed : d.Named := Json.Reader.yields_read yields_description hread
    exact ⟨d.reread, read_write_eq hd, hnamed.write_reread, hnamed.session_reread⟩

/-- A loop that reaches its data through a map whose bare name is the keyword for direct
access: two readings are needed until nothing changes. -/
def qualified : Description where
  name := "sweep"
  sets := [{ name := "cells", core := 8 }]
  loops := [{ name := "flux", set := "cells", descriptors := [⟨.map "mesh.DIRECT", .read⟩] }]

theorem read_write_qualified :
    Description.read qualified.write = .ok qualified.reread ∧
      qualified.reread ≠ qualified ∧ qualified.reread.reread ≠ qualified.reread ∧
      ∃ e, Description.read qualified.reread.write = .ok e ∧
        e.write = qualified.reread.write ∧ e.session = qualified.reread.session := by
  have hdoubles : qualified.WithoutDoubles := by simp [WithoutDoubles, qualified]
  have hagain : qualified.reread.WithoutDoubles := by simp [WithoutDoubles, qualified, reread]
  have hread := (read_write.1 qualified hdoubles).1
  refine ⟨hread, by decide +kernel, by decide +kernel, read_write.2 _ _ hread hagain⟩

end Description

end SparseTiling
