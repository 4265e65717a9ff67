/-!
# Readers

A reader takes a value off the front of a text and hands on the rest. It stops at
the first fault it meets, reading from left to right.

* `Fault`: what can be wrong with a text.
* `Reader`: a reader, with the promise that the rest is no longer than the text.
* `Reader.run_bind`: readers one after another.
* `Reader.enclosed`: items between brackets, with commas between them.
-/

namespace SparseTiling.Json

/-- What can be wrong with a text. -/
inductive Fault
  /-- The text ends too early. -/
  | incomplete
  /-- The text is not JSON. -/
  | malformed
  /-- The text is JSON, but not a value of the expected kind. -/
  | mismatched
  deriving DecidableEq

/-- **A reader** takes a value off the front of a text and hands on the rest. -/
structure Reader (α : Type) where
  run : List Char → Except Fault (α × List Char)
  run_le : ∀ {s x t}, run s = .ok (x, t) → t.length ≤ s.length

/-- The characters that may stand between values. -/
def isSpace (c : Char) : Bool := c = ' ' || c = '\n' || c = '\t' || c = '\r'

/-- The rest after blanks and one more character is shorter than the text. -/
theorem length_lt_of_dropWhile {s t : List Char} {c : Char}
    (h : s.dropWhile isSpace = c :: t) : t.length < s.length := by
  have := (List.dropWhile_suffix (l := s) isSpace).length_le
  rwa [h] at this

namespace Reader

variable {α β σ : Type}

/-- Takes nothing. -/
protected def pure (x : α) : Reader α where
  run s := .ok (x, s)
  run_le h := by simp_all

/-- One reader after another, which may depend on what the first one took. -/
protected def bind (r : Reader α) (f : α → Reader β) : Reader β where
  run s :=
    match r.run s with
    | .ok (x, t) => (f x).run t
    | .error fault => .error fault
  run_le h := by
    split at h
    · next hr => exact Nat.le_trans ((f _).run_le h) (r.run_le hr)
    · simp at h

instance : Monad Reader where
  pure := Reader.pure
  bind := Reader.bind

@[simp]
theorem run_pure (x : α) (s : List Char) : (pure x : Reader α).run s = .ok (x, s) := rfl

/-- The second reader goes on where the first one stopped. -/
@[simp]
theorem run_bind (r : Reader α) (f : α → Reader β) (s : List Char) :
    (r >>= f).run s = (r.run s).bind fun p => (f p.1).run p.2 := by
  show (Reader.bind r f).run s = _
  simp only [Reader.bind]
  cases r.run s <;> rfl

/-- Stops. -/
def fail (fault : Fault) : Reader α where
  run _ := .error fault
  run_le h := by simp at h

/-- Passes over blanks. -/
def blanks : Reader Unit where
  run s := .ok ((), s.dropWhile isSpace)
  run_le {s x t} h := by
    simp only [Except.ok.injEq, Prod.mk.injEq, true_and] at h
    exact h ▸ (List.dropWhile_suffix _).length_le

/-- Looks at the next character. -/
def peek? : Reader (Option Char) where
  run s := .ok (s.head?, s)
  run_le h := by simp_all

/-- Takes the next character. -/
def next? : Reader (Option Char) where
  run s := .ok (s.head?, s.tail)
  run_le {s x t} h := by
    simp only [Except.ok.injEq, Prod.mk.injEq] at h
    simp [← h.2]

/-- Takes characters while they pass a test. -/
def takeWhile (p : Char → Bool) : Reader (List Char) where
  run s := .ok (s.takeWhile p, s.dropWhile p)
  run_le {s x t} h := by
    simp only [Except.ok.injEq, Prod.mk.injEq] at h
    exact h.2 ▸ (List.dropWhile_suffix _).length_le

/-- Takes exactly these characters. -/
def literal : List Char → Reader Unit
  | [] => pure ()
  | c :: cs => do
    match ← next? with
    | none => fail .incomplete
    | some d => if d = c then literal cs else fail .malformed

/-- Takes one mark, after blanks. -/
def mark (c : Char) : Reader Unit := do
  blanks
  literal [c]

/-- The items before a closing bracket, the first of which has not been read. Every
item takes the state a step further. -/
def enclosedRun (close : Char) (item : σ → Reader σ) (x : σ) (s : List Char) :
    Except Fault (σ × List Char) :=
  match _ : (item x).run s with
  | .error fault => .error fault
  | .ok (y, t) =>
    match _ : t.dropWhile isSpace with
    | [] => .error .incomplete
    | c :: u =>
      if c = close then .ok (y, u)
      else if c = ',' then enclosedRun close item y u
      else .error .malformed
termination_by s.length
decreasing_by
  have := (item x).run_le ‹_›
  have := length_lt_of_dropWhile ‹_›
  omega

theorem enclosedRun_le (close : Char) (item : σ → Reader σ) (x : σ) (s : List Char) {y : σ}
    {t : List Char} (h : enclosedRun close item x s = .ok (y, t)) : t.length ≤ s.length := by
  fun_induction enclosedRun close item x s with
  | case1 | case2 | case5 => simp at h
  | case3 x s y' t' hitem u hdrop =>
    obtain ⟨-, rfl⟩ : y' = y ∧ u = t := by simpa using h
    have := (item x).run_le hitem
    have := length_lt_of_dropWhile hdrop
    omega
  | case4 x s y' t' hitem u hne hdrop ih =>
    have := ih h
    have := (item x).run_le hitem
    have := length_lt_of_dropWhile ‹_›
    omega

/-- **Items up to a closing bracket,** with commas between them; the opening bracket
has been read. -/
def enclosed (close : Char) (item : σ → Reader σ) (x : σ) : Reader σ where
  run s :=
    match s.dropWhile isSpace with
    | [] => .error .incomplete
    | c :: u => if c = close then .ok (x, u) else enclosedRun close item x (c :: u)
  run_le {s y t} h := by
    split at h
    · simp at h
    · next c u hs =>
      have hlt := length_lt_of_dropWhile hs
      split at h
      · obtain ⟨-, rfl⟩ : x = y ∧ u = t := by simpa using h
        exact Nat.le_of_lt hlt
      · exact Nat.le_trans (enclosedRun_le close item x _ h) hlt

end Reader

end SparseTiling.Json
