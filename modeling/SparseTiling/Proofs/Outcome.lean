import Mathlib.Data.List.Forall2

/-!
# Outcomes of several requests

Requests that can be refused are made one after another, and the first one that is refused
decides. These facts take such sequences apart and put them together.

* `bind_eq_ok`: two requests in a row.
* `mapM_eq_ok`, `mapM_isOk`, `forM_eq_ok`: requests for all items of a list, when all are met.
* `mapM_eq_error`, `mapM_append_error`: when one of them is refused.
-/

namespace SparseTiling

variable {ε α β : Type} {xs : List α}

/-- From a sequence of two requests that is met, both are. -/
theorem bind_eq_ok {x : Except ε α} {f : α → Except ε β} {b : β} (h : (x >>= f) = .ok b) :
    ∃ a, x = .ok a ∧ f a = .ok b := by
  cases x with
  | error e => simp [bind, Except.bind] at h
  | ok a => exact ⟨a, rfl, h⟩

theorem forM_eq_ok {f : α → Except ε Unit} : xs.forM f = .ok () ↔ ∀ x ∈ xs, f x = .ok () := by
  induction xs with
  | nil => simp [List.forM, pure, Except.pure]
  | cons x xs ih =>
    unfold List.forM
    cases hx : f x with
    | error e => simp [hx, bind, Except.bind]
    | ok u => simpa [hx, bind, Except.bind] using ih

section MapM

variable {f : α → Except ε β}

/-- A list of requests is met when each of them is. -/
theorem mapM_eq_ok {ys : List β} (h : xs.mapM f = .ok ys) :
    List.Forall₂ (fun x y => f x = .ok y) xs ys := by
  induction xs generalizing ys with
  | nil =>
    obtain rfl : [] = ys := by simpa [pure, Except.pure] using h
    exact .nil
  | cons x xs ih =>
    rw [List.mapM_cons] at h
    obtain ⟨y, hx, h⟩ := bind_eq_ok h
    obtain ⟨zs, hxs, h⟩ := bind_eq_ok h
    obtain rfl : y :: zs = ys := by simpa [pure, Except.pure] using h
    exact .cons hx (ih hxs)

theorem mapM_isOk (h : ∀ x ∈ xs, ∃ y, f x = .ok y) : ∃ ys, xs.mapM f = .ok ys := by
  induction xs with
  | nil => exact ⟨[], rfl⟩
  | cons x xs ih =>
    obtain ⟨y, hy⟩ := h x List.mem_cons_self
    obtain ⟨ys, hys⟩ := ih fun w hw => h w (List.mem_cons_of_mem x hw)
    refine ⟨y :: ys, ?_⟩
    rw [List.mapM_cons, hy, hys]
    rfl

/-- A list of requests is refused as one of them is. -/
theorem mapM_eq_error {e : ε} (h : xs.mapM f = .error e) : ∃ x ∈ xs, f x = .error e := by
  induction xs with
  | nil => simp [pure, Except.pure] at h
  | cons x xs ih =>
    rw [List.mapM_cons] at h
    cases hx : f x with
    | error e' =>
      obtain rfl : e' = e := by simpa [hx, bind, Except.bind] using h
      exact ⟨x, List.mem_cons_self, hx⟩
    | ok y =>
      have hxs : xs.mapM f = .error e := by
        cases hrest : xs.mapM f with
        | error e' => simpa [hx, hrest, bind, Except.bind] using h
        | ok ys => simp [hx, hrest, bind, Except.bind, pure, Except.pure] at h
      obtain ⟨z, hz, he⟩ := ih hxs
      exact ⟨z, List.mem_cons_of_mem x hz, he⟩

/-- Requests are made up to the first one that is refused. -/
theorem mapM_append_error {before after : List α} {x : α} {e : ε}
    (hbefore : ∀ y ∈ before, ∃ z, f y = .ok z) (hx : f x = .error e) :
    (before ++ x :: after).mapM f = .error e := by
  induction before with
  | nil => simp [hx, bind, Except.bind]
  | cons y before ih =>
    obtain ⟨z, hz⟩ := hbefore y List.mem_cons_self
    have hrest := ih fun w hw => hbefore w (List.mem_cons_of_mem y hw)
    rw [List.cons_append, List.mapM_cons, hz, hrest]
    rfl

end MapM

end SparseTiling
