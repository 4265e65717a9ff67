import Mathlib.Data.List.Nodup

/-!
# Rows of a table

Code is emitted item by item, and an item knows its row. These facts are about lists that are
made from items, and from items together with their rows.

* `filter_map_all`, `filter_map_none`, `mapM_map_some`: a rule that treats all items alike.
* `map_zipIdx`, `map_fst_zipIdx_filter`: where the rows play no part.
* `getElem?_of_mem_zipIdx_filter`, `filter_zipIdx_eq`: an item and its row.
* `nodup_map_zipIdx`: names that tell rows apart.
-/

namespace SparseTiling

variable {α β γ : Type}

/-! ## Items -/

theorem mapM_map_some {f : β → Option γ} {g : α → β} {h : α → γ} {xs : List α}
    (hf : ∀ x ∈ xs, f (g x) = some (h x)) : (xs.map g).mapM f = some (xs.map h) := by
  induction xs with
  | nil => rfl
  | cons x xs ih =>
    rw [List.map_cons, List.mapM_cons, hf x List.mem_cons_self,
      ih fun y hy => hf y (List.mem_cons_of_mem x hy)]
    rfl

theorem filter_map_all {p : β → Bool} {f : α → β} {xs : List α}
    (h : ∀ x ∈ xs, p (f x) = true) : (xs.map f).filter p = xs.map f := by
  have hall : xs.filter (p ∘ f) = xs := List.filter_eq_self.2 h
  rw [List.filter_map, hall]

theorem filter_map_none {p : β → Bool} {f : α → β} {xs : List α}
    (h : ∀ x ∈ xs, p (f x) = false) : (xs.map f).filter p = [] := by
  rw [List.filter_map, List.filter_eq_nil_iff.2 fun x hx => by simp [h x hx], List.map_nil]

/-! ## Items and their rows -/

theorem map_zipIdx (f : α → β) (xs : List α) : (xs.zipIdx.map fun x => f x.1) = xs.map f := by
  have hfst : (xs.zipIdx.map Prod.fst).map f = xs.map f := by rw [List.zipIdx_map_fst]
  rwa [List.map_map] at hfst

theorem map_fst_zipIdx_filter (p : α → Bool) (xs : List α) (i : Nat) :
    ((xs.zipIdx i).filter fun a => p a.1).map (·.1) = xs.filter p := by
  induction xs generalizing i with
  | nil => rfl
  | cons x xs ih =>
    rw [List.zipIdx_cons, List.filter_cons, List.filter_cons]
    split
    · rw [List.map_cons, ih]
    · exact ih (i + 1)

theorem getElem?_of_mem_zipIdx_filter {xs : List α} {p : α × Nat → Bool} {a : α × Nat}
    (h : a ∈ xs.zipIdx.filter p) : xs[a.2]? = some a.1 ∧ p a = true := by
  obtain ⟨hmem, hp⟩ := List.mem_filter.1 h
  exact ⟨List.mk_mem_zipIdx_iff_getElem?.1 hmem, hp⟩

/-- The one item in a row, with its row. -/
theorem filter_zipIdx_eq (xs : List α) (i n : Nat) :
    ((xs.zipIdx n).filter fun x => x.2 = n + i) = (xs[i]?).toList.map fun x => (x, n + i) := by
  induction xs generalizing i n with
  | nil => simp
  | cons x xs ih =>
    rw [List.zipIdx_cons]
    cases i with
    | zero =>
      have hrest : (xs.zipIdx (n + 1)).filter (fun x => x.2 = n) = [] := by
        rw [List.filter_eq_nil_iff]
        intro y hy he
        have hle := (List.mem_zipIdx hy).1
        have hlt := of_decide_eq_true he
        omega
      simp [hrest]
    | succ i =>
      have hnext := ih i (n + 1)
      rw [show n + 1 + i = n + (i + 1) by omega] at hnext
      simp [hnext]

/-- Names that tell rows apart are distinct. -/
theorem nodup_map_zipIdx {f : α × Nat → β} (h : ∀ a b, f a = f b → a.2 = b.2) (xs : List α) :
    (xs.zipIdx.map f).Nodup := by
  have hrows : xs.zipIdx.Nodup := List.Nodup.of_map Prod.snd (by
    rw [List.zipIdx_map_snd]; exact List.nodup_range')
  refine List.Nodup.map_on (fun a ha b hb hname => ?_) hrows
  have hindex : a.2 = b.2 := h a b hname
  have hitem : a.1 = b.1 := by
    have hat := List.mk_mem_zipIdx_iff_getElem?.1 ha
    have hbt := List.mk_mem_zipIdx_iff_getElem?.1 hb
    rw [hindex, hbt] at hat
    exact (Option.some.inj hat).symm
  exact Prod.ext hitem hindex

end SparseTiling
