import SparseTiling.Proofs.Chain.Reached
import SparseTiling.Session.InPlace

/-!
# Calls are met in full or not at all

A call on a session that is held in place checks and writes step by step. Still, a call
that is refused leaves everything as it was, since no check comes after a write.

* `Request.Meets`: a request does what a transition says, or nothing. There is one rule for
  each way in which checks and writes are put together.
* `Chain.meets_perform`, `Draft.meets_perform`, `Session.meets_perform`: so do the calls.
* `Vocabulary`: which texts name a mode, and what the others are taken for.
* `Hints.Applied`: what accepted hints change.
* `perform_all_or_nothing`: what is left by a refused call, and by accepted hints.
-/

namespace SparseTiling

namespace Request

variable {σ τ α : Type}

/-- What a transition answers, and the state after it: the old one where it refuses. -/
def settled (outcome : Except Error σ) (s : σ) : EStateM.Result Error σ Unit :=
  match outcome with
  | .ok t => .ok () t
  | .error e => .error e s

/-- **A request is met in full or not at all:** it answers and leaves the state as a transition
says. -/
def Meets (p : Request σ Unit) (f : σ → Except Error σ) : Prop := ∀ s, p.run s = settled (f s) s

/-- A request only reads: it answers as `r` says of the state. -/
def Reads (q : Request σ α) (r : σ → Except Error α) : Prop := ∀ s, q.run s = (check (r s)).run s

theorem settled_eq_ok {outcome : Except Error σ} {s t : σ} :
    settled outcome s = .ok () t ↔ outcome = .ok t := by
  cases outcome <;> simp [settled]

theorem settled_eq_error {outcome : Except Error σ} {s t : σ} {e : Error} :
    settled outcome s = .error e t ↔ outcome = .error e ∧ t = s := by
  cases outcome with
  | ok a => simp [settled]
  | error e' => simp [settled, eq_comm]

theorem meets_write (g : σ → σ) : Meets (modify g) fun s => .ok (g s) := fun _ => rfl

theorem meets_nothing : Meets (pure () : Request σ Unit) .ok := fun _ => rfl

/-- What is only read before a request writes nothing, also where it refuses. -/
theorem Reads.meets {q : Request σ α} {r : σ → Except Error α} {p : α → Request σ Unit}
    {f : α → σ → Except Error σ} (hq : Reads q r) (hp : ∀ a, Meets (p a) (f a)) :
    Meets (q >>= p) fun s => r s >>= fun a => f a s := by
  intro s
  change _ = settled (r s >>= fun a => f a s) s
  rw [EStateM.run_bind, hq s]
  cases r s with
  | error e => rfl
  | ok a => exact hp a s

theorem meets_check (outcome : Except Error α) {p : α → Request σ Unit}
    {f : α → σ → Except Error σ} (hp : ∀ a, Meets (p a) (f a)) :
    Meets (check outcome >>= p) fun s => outcome >>= fun a => f a s :=
  Reads.meets (fun _ => rfl) hp

/-- Writes after a request are never refused, so they leave nothing half done. -/
theorem Meets.write {p q : Request σ Unit} {f : σ → Except Error σ} {g : σ → σ} (hp : Meets p f)
    (hq : Meets q fun s => .ok (g s)) :
    Meets (p >>= fun _ => q) fun s => f s >>= fun t => .ok (g t) := by
  intro s
  change _ = settled (f s >>= fun t => .ok (g t)) s
  rw [EStateM.run_bind, hp s]
  cases f s with
  | error e => rfl
  | ok t => exact hq t

/-- A request on a part of the state. -/
theorem Meets.focus {part : τ → σ} {update : τ → σ → τ} {p : Request σ Unit}
    {f : σ → Except Error σ} (hp : Meets p f) (hupdate : ∀ t, update t (part t) = t) :
    Meets (focus part update p) fun t => f (part t) >>= fun s => .ok (update t s) := by
  intro t
  have hpart : p (part t) = settled (f (part t)) (part t) := hp (part t)
  change Request.focus part update p t = settled (f (part t) >>= fun s => .ok (update t s)) t
  unfold Request.focus
  rw [hpart]
  cases f (part t) with
  | ok s => rfl
  | error e =>
    change EStateM.Result.error e (update t (part t)) = .error e t
    rw [hupdate]

end Request

open Request

/-! ## Chains -/

theorem Chain.meets_perform (call : Chain.Call) : Meets (Chain.perform call) (·.apply call) := by
  cases call with
  | declareSets sets => exact meets_check _ fun _ => meets_check _ fun _ => meets_write _
  | declareMaps maps => exact meets_check _ fun _ => meets_write _
  | declareLoops loops => exact meets_check _ fun _ => meets_write _
  | declarePartitionings partitionings => exact meets_write _
  | setTileSize size => exact meets_write _
  | setRank rank => exact meets_write _
  | chooseSeed seed =>
    intro c
    -- the seed is checked against the loops of the chain as it is
    exact meets_check (c.checkSeed seed) (fun chosen => meets_write _) c

/-! ## Settings -/

namespace Draft

theorem meets_lenient {α : Type} [Mode α] (text : String) (set : Draft → α → Draft) :
    Meets (do let mode ← lenient text; modify (set · mode)) fun d => .ok (d.resolving text set) :=
  fun _ => rfl

theorem meets_performColoring (text : Option String) :
    Meets (performColoring text) fun d =>
      .ok (match text with | some text => d.readColoring text | none => d) := by
  cases text with
  | none => exact meets_nothing
  | some text => exact meets_lenient text setColoring

theorem meets_performPartitioning (text : Option String) :
    Meets (performPartitioning text) fun d =>
      .ok (match text with | some text => d.readPartitioning text | none => d) := by
  cases text with
  | none => exact meets_nothing
  | some text => exact meets_lenient text setPartitioning

theorem meets_configure (hints : Hints) :
    Meets (perform (.configure hints)) (·.configure hints) := by
  have hmodes := (meets_performColoring hints.coloring).write
    (meets_performPartitioning hints.partitioning)
  have hwrites (distance : UInt32) := (meets_write fun d : Draft =>
    { d with settings := { d.settings with prefetch := distance } }).write
    ((meets_write (·.setIgnoreWar hints.ignoreWar)).write hmodes)
  intro d
  have hd := meets_check (prefetchOf hints.prefetch.toInt) hwrites d
  refine hd.trans ?_
  unfold configure setPrefetch
  cases prefetchOf hints.prefetch.toInt <;> rfl

theorem meets_perform (call : Call) : Meets (perform call) (·.apply call) := by
  cases call with
  | setExecution mode => exact meets_write _
  | readExecution text => exact meets_lenient text setExecution
  | setColoring mode => exact meets_write _
  | readColoring text => exact meets_performColoring (some text)
  | setPartitioning mode => exact meets_write _
  | readPartitioning text => exact meets_performPartitioning (some text)
  | setDebug mode field => exact meets_write _
  | readDebug text field => exact meets_lenient text fun d mode => d.setDebug mode field
  | setTiming on => exact meets_write _
  | setMeshMaps maps => exact meets_write _
  | setIgnoreWar on => exact meets_write _
  | setPrefetch distance => exact meets_check _ fun _ => meets_write _
  | configure hints => exact meets_configure hints

end Draft

/-! ## Sessions -/

namespace Session

theorem reads_checkHeldSeed (seed : Option Int64) :
    Reads (checkHeldSeed seed) fun s =>
      match seed with
      | none => .ok none
      | some seed => (s.chain.checkSeed seed.toInt).map some := by
  intro s
  cases seed with
  | none => rfl
  | some seed =>
    change (check (s.chain.checkSeed seed.toInt) >>= fun chosen => pure (some chosen)).run s =
      (check ((s.chain.checkSeed seed.toInt).map some)).run s
    cases s.chain.checkSeed seed.toInt <;> rfl

/-- What pinning a seed does to a session. -/
def pinned (seed : Option Nat) (s : Session) : Session :=
  match seed with
  | none => s
  | some seed => { s with chain := { s.chain with chosenSeed := some seed } }

theorem meets_pinHeldSeed (seed : Option Nat) :
    Meets (pinHeldSeed seed) fun s => .ok (pinned seed s) := by
  cases seed with
  | none => exact meets_nothing
  | some seed => exact fun _ => rfl

theorem meets_configure (hints : Hints) :
    Meets (perform (.configure hints)) (·.configure hints) := by
  have hdraft : Meets (onHeldDraft (Draft.perform (.configure hints))) fun s =>
      s.draft.configure hints >>= fun draft => .ok { s with draft } :=
    (Draft.meets_configure hints).focus fun _ => rfl
  intro s
  refine ((reads_checkHeldSeed hints.seedLoop).meets fun seed =>
    hdraft.write (meets_pinHeldSeed seed)) s |>.trans ?_
  unfold configure chooseSeed Chain.chooseSeed
  cases hints.seedLoop with
  | none =>
    dsimp only
    cases s.draft.configure hints <;> rfl
  | some seed =>
    dsimp only
    cases s.chain.checkSeed seed.toInt with
    | error e => rfl
    | ok chosen => cases s.draft.configure hints <;> rfl

/-- **Every call on a session is met in full or not at all.** -/
theorem meets_perform (call : Call) : Meets (perform call) (·.apply call) := by
  cases call with
  | chain call => exact (Chain.meets_perform call).focus fun _ => rfl
  | draft call => exact (Draft.meets_perform call).focus fun _ => rfl
  | configure hints => exact meets_configure hints

end Session

/-! ## Words for modes -/

/-- The words for the values of a mode in small letters, the value for any other text, and the
warning about it. -/
structure Vocabulary (α : Type) where
  words : List (String × α)
  otherwise : α
  warning : String → Warning

namespace Vocabulary

variable {α : Type}

/-- The value of a word that is written in any case of ASCII letters. -/
def known? (v : Vocabulary α) (text : String) : Option α := v.words.lookup text.toLower

/-- What a text is taken for. -/
def value (v : Vocabulary α) (text : String) : α := (v.known? text).getD v.otherwise

/-- A word gives no warning, and any other text one. -/
def warnings (v : Vocabulary α) (text : String) : List Warning :=
  if (v.known? text).isSome then [] else [v.warning text]

def coloring : Vocabulary ColoringMode where
  words := [("default", .standard), ("rand", .random), ("mincols", .fewest)]
  otherwise := .standard
  warning text :=
    { message := "coloring mode `" ++ text ++ "` not in [\"default\", \"rand\", \"mincols\"]"
      notes := ["coloring mode set to COL_DEFAULT"] }

def partitioning : Vocabulary PartitionMode where
  words := [("chunk", .chunk), ("metis", .metis)]
  otherwise := .chunk
  warning text :=
    { message := "partitioning mode `" ++ text ++ "` not in [\"chunk\", \"metis\"]"
      notes := ["partitioning mode set to chunk"] }

/-- A word in small letters is spelled by the texts that it is the small form of. -/
theorem sameLetters_small {word : String} (h : word.toList.map Char.toLower = word.toList)
    (text : String) : Mode.sameLetters word text = (text.toLower == word) := by
  have hlower : text.toLower.toList = text.toList.map Char.toLower := String.toList_map
  rw [Mode.sameLetters, h, ← hlower, Bool.eq_iff_iff, beq_iff_eq, beq_iff_eq, String.toList_inj]
  exact eq_comm

theorem find?_sameLetters {words : List (String × α)}
    (h : ∀ w ∈ words, w.1.toList.map Char.toLower = w.1.toList) (text : String) :
    (words.find? fun w => Mode.sameLetters w.1 text).map (·.2) = words.lookup text.toLower := by
  induction words with
  | nil => rfl
  | cons w words ih =>
    obtain ⟨hw, hwords⟩ := List.forall_mem_cons.1 h
    obtain ⟨word, mode⟩ := w
    rw [List.find?_cons, sameLetters_small hw, List.lookup_cons, ← ih hwords]
    cases text.toLower == word <;> rfl

/-- **A mode is read by its vocabulary**: its words in any case of ASCII letters, and any other
text as the fallback, with a warning. -/
theorem resolve_eq [Mode α] (v : Vocabulary α)
    (hsmall : ∀ w ∈ v.words, w.1.toList.map Char.toLower = w.1.toList)
    (hwords : Mode.spellings = v.words) (hotherwise : Mode.fallback = v.otherwise)
    (hwarning : ∀ text, Mode.fallbackWarning α text = v.warning text) (text : String) :
    Mode.resolve text = (v.value text, v.warnings text) := by
  have hfind := find?_sameLetters hsmall text
  unfold Mode.resolve Mode.parse value warnings known?
  rw [← hfind, hwords, hotherwise, hwarning]
  cases v.words.find? fun w => Mode.sameLetters w.1 text <;> rfl

/-- The warning of a mode in words, from its parts that do not depend on the text. -/
theorem fallbackWarning_eq (α : Type) [Mode α] {opening closing note : String}
    (hopening : Mode.setting α ++ " `" = opening)
    (hclosing : "` not in " ++ quotedList (Mode.accepted α) = closing)
    (hnote : Mode.setting α ++ " set to " ++ Mode.symbol (Mode.fallback (α := α)) = note)
    (text : String) :
    Mode.fallbackWarning α text =
      { message := opening ++ text ++ closing, notes := [note] } := by
  rw [← hopening, ← hclosing, ← hnote, ← String.append_assoc]
  rfl

theorem resolve_coloring (text : String) :
    Mode.resolve text = (coloring.value text, coloring.warnings text) :=
  coloring.resolve_eq (by decide) rfl rfl
    (fallbackWarning_eq ColoringMode (by decide) (by decide) (by decide)) text

theorem resolve_partitioning (text : String) :
    Mode.resolve text = (partitioning.value text, partitioning.warnings text) :=
  partitioning.resolve_eq (by decide) rfl rfl
    (fallbackWarning_eq PartitionMode (by decide) (by decide) (by decide)) text

end Vocabulary

/-! ## Accepted hints -/

/-- What hints change when they are accepted: all that they name, and nothing else. -/
structure Hints.Applied (h : Hints) (s t : Session) : Prop where
  /-- A seed is pinned as it was given. -/
  seed : ∀ n, h.seedLoop = some n →
    ∃ k : Nat, (k : Int) = n.toInt ∧ t.chain = { s.chain with chosenSeed := some k }
  noSeed : h.seedLoop = none → t.chain = s.chain
  prefetch : (t.settings.prefetch.toNat : Int) = h.prefetch.toInt
  ignoreWar : t.settings.ignoreWar = h.ignoreWar
  coloring : t.settings.coloring =
    (h.coloring.map Vocabulary.coloring.value).getD s.settings.coloring
  partitioning : t.settings.partitioning =
    (h.partitioning.map Vocabulary.partitioning.value).getD s.settings.partitioning
  others : t.settings =
    { s.settings with
      prefetch := t.settings.prefetch
      ignoreWar := t.settings.ignoreWar
      coloring := t.settings.coloring
      partitioning := t.settings.partitioning }
  /-- New warnings, of the coloring first, follow the old ones. -/
  warnings : t.warnings = s.warnings ++ h.coloring.toList.flatMap Vocabulary.coloring.warnings ++
    h.partitioning.toList.flatMap Vocabulary.partitioning.warnings

theorem prefetchOf_eq_ok {distance : Int} {p : UInt32} (h : prefetchOf distance = .ok p) :
    (p.toNat : Int) = distance := by
  unfold prefetchOf at h
  split at h
  · rename_i hrange
    obtain rfl := Except.ok.inj h
    have hsmall : distance.toNat < 2 ^ 32 := by omega
    rw [UInt32.toNat_ofNat_of_lt' hsmall, Int.toNat_of_nonneg hrange.1]
  · cases h

theorem Chain.checkSeed_eq_ok {c : Chain} {seed : Int} {k : Nat} (h : c.checkSeed seed = .ok k) :
    (k : Int) = seed := by
  unfold checkSeed at h
  split at h
  · cases h
  · rename_i hrange
    obtain rfl := Except.ok.inj h
    omega

theorem Session.chooseSeed_eq_ok {c c' : Chain} {seed : Option Int64}
    (h : chooseSeed c seed = .ok c') :
    (∀ n, seed = some n → ∃ k : Nat, (k : Int) = n.toInt ∧ c' = { c with chosenSeed := some k }) ∧
      (seed = none → c' = c) := by
  cases seed with
  | none =>
    obtain rfl := Except.ok.inj h
    exact ⟨by simp, fun _ => rfl⟩
  | some seed =>
    obtain ⟨k, hk, h⟩ := bind_eq_ok h
    obtain rfl := Except.ok.inj h
    refine ⟨fun n hn => ⟨k, ?_, rfl⟩, by simp⟩
    rw [← Option.some.inj hn]
    exact Chain.checkSeed_eq_ok hk

theorem Draft.configure_eq_ok {d d' : Draft} {hints : Hints} (h : d.configure hints = .ok d') :
    ∃ distance, prefetchOf hints.prefetch.toInt = .ok distance ∧
      d'.settings =
        { d.settings with
          prefetch := distance
          ignoreWar := hints.ignoreWar
          coloring := (hints.coloring.map fun text => (Mode.resolve text).1).getD
            d.settings.coloring
          partitioning := (hints.partitioning.map fun text => (Mode.resolve text).1).getD
            d.settings.partitioning } ∧
      d'.warnings = d.warnings ++
        (hints.coloring.toList.flatMap fun text => (Mode.resolve (α := ColoringMode) text).2) ++
        hints.partitioning.toList.flatMap fun text =>
          (Mode.resolve (α := PartitionMode) text).2 := by
  obtain ⟨ready, hready, h⟩ := bind_eq_ok h
  obtain ⟨distance, hdistance, hready⟩ := bind_eq_ok hready
  refine ⟨distance, hdistance, ?_⟩
  rw [← Except.ok.inj h, ← Except.ok.inj hready]
  -- each mode is read from a spelling or not at all
  cases hints.coloring <;> cases hints.partitioning <;>
    exact ⟨rfl, by simp [readColoring, readPartitioning, resolving, warn, setColoring,
      setPartitioning, setIgnoreWar]⟩

/-- Accepted hints are applied, every one of them. -/
theorem Session.applied_of_configure {s t : Session} {hints : Hints}
    (h : s.configure hints = .ok t) : hints.Applied s t := by
  obtain ⟨chain, hchain, h⟩ := bind_eq_ok h
  obtain ⟨draft, hdraft, h⟩ := bind_eq_ok h
  obtain rfl := Except.ok.inj h
  obtain ⟨hseed, hnone⟩ := chooseSeed_eq_ok hchain
  obtain ⟨distance, hdistance, hsettings, hwarnings⟩ := Draft.configure_eq_ok hdraft
  simp only [Vocabulary.resolve_coloring, Vocabulary.resolve_partitioning] at hsettings hwarnings
  have hprefetch := prefetchOf_eq_ok hdistance
  refine ⟨hseed, hnone, ?_, ?_, ?_, ?_, ?_, hwarnings⟩ <;> simp only [settings, hsettings]
  exact hprefetch

/-! ## All or nothing -/

/-- **A refused call changes nothing.** Take any session that is held in place. A call on it
answers like the transition of that call, and leaves the session that the transition leads to;
where it is refused, the session is the same as before, with its chain, its settings and its
warnings. When hints are accepted, all of them are applied. -/
theorem Session.perform_all_or_nothing (s : Session) :
    (∀ (call : Call) (e : Error) (t : Session), (perform call).run s = .error e t ↔
      s.apply call = .error e ∧ t = s) ∧
    (∀ (call : Call) (t : Session), (perform call).run s = .ok () t ↔ s.apply call = .ok t) ∧
    ∀ (hints : Hints) (t : Session), (perform (.configure hints)).run s = .ok () t →
      hints.Applied s t := by
  have hrun (call : Call) := meets_perform call s
  refine ⟨fun call e t => ?_, fun call t => ?_, fun hints t h => ?_⟩
  · rw [hrun call, settled_eq_error]
  · rw [hrun call, settled_eq_ok]
  · rw [hrun (.configure hints), settled_eq_ok] at h
    exact applied_of_configure h

/-- A session with two loops, the second one chosen as seed. -/
def Session.twoLoops : Session where
  chain :=
    { name := "jacobi"
      sets := [{ name := "cells", core := 8 }]
      loops := [⟨"relax", "cells", [.direct .read]⟩, ⟨"update", "cells", [.direct .write]⟩]
      chosenSeed := some 1 }

/-- Hints with the first loop as seed, a word for the coloring in mixed case, and a text for the
partitioning that is no word. -/
def Hints.mixed : Hints :=
  { seedLoop := some 0, prefetch := 2, coloring := some "RaNd", partitioning := some "zebra" }

/-- The seed of the first hints is fine, but not their prefetch distance. The second hints are
accepted, with a warning about one of their texts. -/
theorem Session.perform_hints :
    (perform (.configure { Hints.mixed with prefetch := -1 })).run twoLoops =
        .error (.prefetchDistance (-1)) twoLoops ∧
      ∃ t, (perform (.configure Hints.mixed)).run twoLoops = .ok () t ∧
        Hints.mixed.Applied twoLoops t ∧
        t.settings.coloring = .random ∧ t.settings.partitioning = .chunk ∧
        t.warnings =
          [{ message := "partitioning mode `zebra` not in [\"chunk\", \"metis\"]"
             notes := ["partitioning mode set to chunk"] }] := by
  obtain ⟨hrefused, haccepted, happlied⟩ := perform_all_or_nothing twoLoops
  refine ⟨(hrefused _ _ _).2 ⟨rfl, rfl⟩, ?_⟩
  obtain ⟨t, ht⟩ : ∃ t, twoLoops.apply (.configure Hints.mixed) = .ok t := ⟨_, rfl⟩
  have hrun := (haccepted _ t).2 ht
  have hall := happlied _ t hrun
  exact ⟨t, hrun, hall, hall.coloring.trans (by cbv), hall.partitioning.trans (by cbv),
    hall.warnings.trans (by cbv)⟩

end SparseTiling
