import Mathlib.Logic.Relation
import Mathlib.Tactic
import SparseTiling.Proofs.Code.Effect

/-!
# Teams of workers

The meaning of emitted code with threads. A pragma may hand a block to a team of workers.
Each worker runs the block with variables of its own. The iterations of a shared loop are
handed out to the workers, in any order and any distribution; an iteration runs as a
whole, and no worker leaves the loop before all iterations are done. A critical block runs
as a whole too.

* `Team`, `Step`: a team, and what one worker can do.
* `Runs`: complete runs of statements, with teams of any size.
* `Runs.plain_inv`: statements without pragmas run as they do without threads.
-/

namespace SparseTiling.Code

variable {Obj : Type}

/-! ## Pragmas -/

/-- What a pragma asks for. -/
inductive Directive
  /-- A team of workers for the block that follows. -/
  | team
  /-- A team of workers that share the loop that follows. -/
  | teamLoop
  /-- The workers share the loop that follows. -/
  | share
  /-- One worker at a time in the block that follows. -/
  | critical

def Directive.ofPragma? : String → Option Directive
  | "omp parallel" => some .team
  | "omp parallel for schedule(dynamic)" => some .teamLoop
  | "omp for schedule(dynamic)" => some .share
  | "omp critical" => some .critical
  | _ => none

def Stmt.isPragma : Stmt → Bool
  | .pragma _ => true
  | _ => false

/-- Statements without a pragma anywhere. -/
def plain (ss : List Stmt) : Bool := (Stmt.preorder ss).all fun s => !s.isPragma

/-! ## Teams -/

/-- A worker, with its own variables and what it has yet to run. -/
structure Worker (Obj : Type) where
  frames : Frames Obj
  todo : List Stmt

/-- Workers with the variables they share. -/
structure Team (Obj : Type) where
  shared : Frames Obj
  now : Int
  trace : List (Event Obj)
  /-- Once a shared loop has begun, the iterations that nobody has taken. -/
  pool : Option (List Nat)
  workers : List (Worker Obj)

/-- The worker is before a shared loop. -/
def Worker.AtLoop (w : Worker Obj) (var : String) (bound : Expr) (body rest : List Stmt) : Prop :=
  ∃ text, Directive.ofPragma? text = some .share ∧
    w.todo = .pragma text :: .forRange var bound body :: rest ∧ plain body

namespace Team

/-- What is left when the workers are gone. -/
def state (t : Team Obj) : State Obj := ⟨t.shared, t.now, t.trace⟩

/-- What a worker sees. -/
def view (t : Team Obj) (w : Worker Obj) : State Obj := ⟨w.frames ++ t.shared, t.now, t.trace⟩

/-- A worker has come to a state, with this left to run. -/
def moved (t : Team Obj) (before : List (Worker Obj)) (w : Worker Obj)
    (after : List (Worker Obj)) (σ : State Obj) (todo : List Stmt) : Team Obj where
  shared := σ.frames.drop w.frames.length
  now := σ.now
  trace := σ.trace
  pool := t.pool
  workers := before ++ { frames := σ.frames.take w.frames.length, todo } :: after

/-- A team that starts. -/
def fork (count : Nat) (todo : List Stmt) (σ : State Obj) : Team Obj where
  shared := σ.frames
  now := σ.now
  trace := σ.trace
  pool := none
  workers := List.replicate count { frames := [[]], todo }

/-- Nobody has anything left to run. -/
def Joined (t : Team Obj) : Prop := ∀ w ∈ t.workers, w.todo = []

end Team

/-- **One step of a team.** -/
inductive Step (p : Platform Obj) (t : Team Obj) : Team Obj → Prop
  /-- A worker runs its next statement. -/
  | plain {before after w s rest σ} :
      t.workers = before ++ w :: after → w.todo = s :: rest → plain [s] →
      exec p s (t.view w) = some (.next, σ) → Step p t (t.moved before w after σ rest)
  /-- The first worker comes to a shared loop. -/
  | start {w var bound body rest m} :
      t.pool = none → w ∈ t.workers → w.AtLoop var bound body rest →
      eval p (t.view w) bound = some (.int m) →
      Step p t { t with pool := some (List.range m.toNat) }
  /-- A worker takes an iteration and runs it. -/
  | take {before after w var bound body rest ks k flow σ} :
      t.workers = before ++ w :: after → w.AtLoop var bound body rest → t.pool = some ks →
      k ∈ ks → iteration var (execAll p body) k (t.view w) = some (flow, σ) → flow ≠ .leave →
      Step p t { t.moved before w after σ w.todo with pool := some (ks.erase k) }
  /-- All iterations are done, and the workers go on together. -/
  | pass :
      t.pool = some [] →
      (∀ w ∈ t.workers, ∃ var bound body rest, w.AtLoop var bound body rest) →
      Step p t { t with
        pool := none, workers := t.workers.map fun w => { w with todo := w.todo.drop 2 } }
  /-- A worker runs a critical block. -/
  | critical {before after w text body rest σ} :
      t.workers = before ++ w :: after → Directive.ofPragma? text = some .critical →
      w.todo = .pragma text :: .scope body :: rest → Code.plain body →
      block [] (execAll p body) (t.view w) = some (.next, σ) →
      Step p t (t.moved before w after σ rest)

/-- Any number of steps. -/
abbrev Steps (p : Platform Obj) : Team Obj → Team Obj → Prop := Relation.ReflTransGen (Step p)

mutual

/-- **Complete runs of statements,** from a state to a state. -/
inductive Runs (p : Platform Obj) : List Stmt → State Obj → State Obj → Prop
  | nil {σ} : Runs p [] σ σ
  | plain {s rest σ σ₁ σ₂} :
      plain [s] → exec p s σ = some (.next, σ₁) → Runs p rest σ₁ σ₂ → Runs p (s :: rest) σ σ₂
  | loop {var bound body rest σ σ₁ σ₂ m} :
      ¬ Code.plain body → eval p σ bound = some (.int m) →
      Rounds p var body (List.range m.toNat) σ σ₁ → Runs p rest σ₁ σ₂ →
      Runs p (.forRange var bound body :: rest) σ σ₂
  | team {text body rest σ t σ₂ count} :
      Directive.ofPragma? text = some .team → 0 < count →
      Steps p (Team.fork count body σ) t → t.Joined → Runs p rest t.state σ₂ →
      Runs p (.pragma text :: .scope body :: rest) σ σ₂
  | teamLoop {text share var bound body rest σ t σ₂ count} :
      Directive.ofPragma? text = some .teamLoop → Directive.ofPragma? share = some .share →
      0 < count →
      Steps p (Team.fork count [.pragma share, .forRange var bound body] σ) t → t.Joined →
      Runs p rest t.state σ₂ →
      Runs p (.pragma text :: .forRange var bound body :: rest) σ σ₂

/-- The iterations of a loop with pragmas inside, one after another. -/
inductive Rounds (p : Platform Obj) : String → List Stmt → List Nat → State Obj → State Obj → Prop
  | nil {var body σ} : Rounds p var body [] σ σ
  | cons {var body k ks σ σ₁ σ₂} :
      Runs p body { σ with frames := [(var, .int k)] :: σ.frames } σ₁ →
      Rounds p var body ks { σ₁ with frames := σ₁.frames.tail } σ₂ →
      Rounds p var body (k :: ks) σ σ₂

end

/-! ## Statements without pragmas -/

section Plain

variable {p : Platform Obj} {s : Stmt} {rest first : List Stmt} {σ σ₁ σ₂ : State Obj}

theorem not_plain_pragma {text : String} : ¬ plain [.pragma text] := by
  simp [plain, Stmt.preorder, Stmt.subtree, Stmt.isPragma]

theorem plain_cons : plain (s :: rest) ↔ plain [s] ∧ plain rest := by
  simp [plain, Stmt.preorder]

theorem plain_append : plain (first ++ rest) ↔ plain first ∧ plain rest := by
  induction first with
  | nil => simp [plain, Stmt.preorder]
  | cons s first ih => rw [List.cons_append, plain_cons, ih, ← and_assoc, ← plain_cons]

theorem plain_of_forall {ss : List Stmt} (h : ∀ s ∈ ss, plain [s]) : plain ss := by
  induction ss with
  | nil => rfl
  | cons s ss ih =>
    exact plain_cons.2 ⟨h s List.mem_cons_self, ih fun s' hs' => h s' (List.mem_cons_of_mem _ hs')⟩

theorem plain_forRange {var : String} {bound : Expr} {body : List Stmt} :
    plain [.forRange var bound body] ↔ plain body := by
  simp [plain, Stmt.preorder, Stmt.subtree, Stmt.isPragma]

theorem Runs.nil_inv (h : Runs p [] σ σ₁) : σ₁ = σ := by
  cases h
  rfl

theorem Runs.plain_inv (hs : Code.plain [s]) (h : Runs p (s :: rest) σ σ₂) :
    ∃ σ₁, exec p s σ = some (.next, σ₁) ∧ Runs p rest σ₁ σ₂ := by
  cases h with
  | plain _ hexec hrest => exact ⟨_, hexec, hrest⟩
  | loop hbody => exact absurd (plain_forRange.1 hs) hbody
  | team => exact absurd hs not_plain_pragma
  | teamLoop => exact absurd hs not_plain_pragma

/-- **Statements without pragmas run as they do without threads.** -/
theorem Runs.does_inv (hs : Code.plain first) (hd : Does p first σ σ₁)
    (h : Runs p (first ++ rest) σ σ₂) : Runs p rest σ₁ σ₂ := by
  induction first generalizing σ with
  | nil =>
    obtain rfl : σ = σ₁ := by simpa [Does, execAll] using hd
    exact h
  | cons s first ih =>
    obtain ⟨hs, hfirst⟩ := plain_cons.1 hs
    obtain ⟨τ, hexec, hrest⟩ := h.plain_inv hs
    refine ih hfirst ?_ hrest
    simpa [Does, execAll, hexec] using hd

theorem Runs.of_does (hs : Code.plain first) (hd : Does p first σ σ₁) (h : Runs p rest σ₁ σ₂) :
    Runs p (first ++ rest) σ σ₂ := by
  induction first generalizing σ with
  | nil =>
    obtain rfl : σ = σ₁ := by simpa [Does, execAll] using hd
    exact h
  | cons s first ih =>
    obtain ⟨hs, hfirst⟩ := plain_cons.1 hs
    unfold Does at hd
    simp only [execAll] at hd
    obtain ⟨⟨flow, τ⟩, hexec, hd⟩ := Option.bind_eq_some_iff.1 hd
    by_cases hf : flow = .next
    · subst hf
      rw [if_pos rfl] at hd
      exact .plain hs hexec (ih hfirst hd)
    · simp [hf] at hd

end Plain

end SparseTiling.Code
