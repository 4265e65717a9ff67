import Mathlib.Tactic
import SparseTiling.Executor
import SparseTiling.Proofs.Code.Effect

/-!
# The sums that timing keeps

With timing, emitted code keeps two arrays with an entry for each loop: the iterations
so far, and the times of the single runs. A ledger is what the two arrays say. It stands
in variables of two names, which differ between the arrays of all and those of a worker.

* `Kept`, `book`: a ledger stands in the variables; it is written there.
* `Ledger.charge`: more for one loop; `does_charge` is the emitted code for one run.
-/

namespace SparseTiling.Executor

open Code

variable {Obj : Type}

/-- For each loop, its iterations and the times of its runs. -/
def Ledger : Type := Nat → Int × List Int

namespace Ledger

/-- Nothing has run. -/
def blank : Ledger := fun _ => (0, [])

/-- The array of the iterations. -/
def itersValue (n : Nat) (l : Ledger) : Value Obj :=
  .array ((List.range n).map fun k => .int (l k).1)

/-- The array of the times. -/
def timesValue (n : Nat) (l : Ledger) : Value Obj :=
  .array ((List.range n).map fun k => .array ((l k).2.map .int))

/-- More iterations and times for the loop at a position. -/
def charge (l : Ledger) (position : Nat) (size : Int) (times : List Int) : Ledger :=
  fun k => if k = position then ((l k).1 + size, (l k).2 ++ times) else l k

/-- More iterations and times for each of the first loops. -/
def more (l : Ledger) (m : Nat) (size : Nat → Int) (times : Nat → List Int) : Ledger :=
  fun k => if k < m then ((l k).1 + size k, (l k).2 ++ times k) else l k

theorem more_zero (l : Ledger) (size : Nat → Int) (times : Nat → List Int) :
    l.more 0 size times = l := by
  funext k
  simp [more]

theorem charge_more (l : Ledger) (m : Nat) (size : Nat → Int) (times : Nat → List Int) :
    (l.more m size times).charge m (size m) (times m) = l.more (m + 1) size times := by
  funext k
  unfold charge more
  rcases Nat.lt_trichotomy k m with h | rfl | h
  · rw [if_neg (by omega), if_pos h, if_pos (by omega)]
  · rw [if_pos rfl, if_neg (by omega), if_pos (by omega)]
  · rw [if_neg (by omega), if_neg (by omega), if_neg (by omega)]

end Ledger

/-- Names of the variables for the times and for the iterations. -/
abbrev Books := String × String

/-- The ledger of the first loops stands in the variables. -/
structure Kept (books : Books) (n : Nat) (l : Ledger) (fs : Frames Obj) : Prop where
  times : fs.value? books.1 = some (l.timesValue n)
  iters : fs.value? books.2 = some (l.itersValue n)

/-- Write the ledger of the first loops into the variables. -/
def book (books : Books) (n : Nat) (l : Ledger) (fs : Frames Obj) : Frames Obj :=
  (fs.put books.1 (l.timesValue n)).put books.2 (l.itersValue n)

section Book

variable {books : Books} {n : Nat} {l l' : Ledger} {f : Frame Obj} {fs : Frames Obj}

theorem book_congr (h : ∀ k < n, l k = l' k) : book books n l fs = book books n l' fs := by
  have ht : (l.timesValue n : Value Obj) = l'.timesValue n := by
    unfold Ledger.timesValue
    refine congrArg Value.array (List.map_congr_left fun k hk => ?_)
    rw [h k (List.mem_range.1 hk)]
  have hi : (l.itersValue n : Value Obj) = l'.itersValue n := by
    unfold Ledger.itersValue
    refine congrArg Value.array (List.map_congr_left fun k hk => ?_)
    rw [h k (List.mem_range.1 hk)]
  unfold book
  rw [ht, hi]

theorem Kept.booked (hne : books.1 ≠ books.2) (h : Kept books n l fs) :
    Kept books n l' (book books n l' fs) := by
  constructor
  · unfold book
    rw [Frames.value?_put_of_ne hne]
    exact Frames.value?_put_self (by simp [h.times])
  · unfold book
    refine Frames.value?_put_self ?_
    rw [Frames.value?_put_of_ne hne.symm, h.iters]
    rfl

theorem Kept.book_eq (h : Kept books n l fs) : book books n l fs = fs := by
  unfold book
  rw [Frames.put_self h.times, Frames.put_self h.iters]

theorem book_book (hne : books.1 ≠ books.2) :
    book books n l (book books n l' fs) = book books n l fs := by
  unfold book
  rw [Frames.put_comm hne, Frames.put_put, Frames.put_put]

theorem value?_book {name : String} (ht : name ≠ books.1) (hi : name ≠ books.2) :
    (book books n l fs).value? name = fs.value? name := by
  unfold book
  rw [Frames.value?_put_of_ne hi, Frames.value?_put_of_ne ht]

theorem Kept.objects_book (hne : books.1 ≠ books.2) (h : Kept books n l fs) :
    (book books n l' fs).objects = fs.objects := by
  have hi : (fs.put books.1 (l'.timesValue n)).value? books.2 = some (l.itersValue n) := by
    rw [Frames.value?_put_of_ne hne.symm, h.iters]
  unfold book
  rw [Frames.objects_put rfl hi rfl, Frames.objects_put rfl h.times rfl]

theorem Kept.cons (h : Kept books n l fs) (ht : f.lookup books.1 = none)
    (hi : f.lookup books.2 = none) : Kept books n l (f :: fs) := by
  constructor
  · rw [Frames.value?_cons_of_none ht, h.times]
  · rw [Frames.value?_cons_of_none hi, h.iters]

theorem book_cons (ht : f.lookup books.1 = none) (hi : f.lookup books.2 = none) :
    book books n l (f :: fs) = f :: book books n l fs := by
  unfold book
  rw [Frames.put_cons_of_none ht, Frames.put_cons_of_none hi]

end Book

/-! ## Entries -/

section Entries

variable {n k : Nat} {α : Type}

theorem getElem?_map_range (f : Nat → α) (h : k < n) : ((List.range n).map f)[k]? = some (f k) := by
  simp [h]

theorem set_map_range (f : Nat → α) (k : Nat) (a : α) :
    ((List.range n).map f).set k a = (List.range n).map (Function.update f k a) := by
  apply List.ext_getElem (by simp)
  intro i hi _
  rw [List.getElem_set]
  by_cases h : k = i
  · simp [h]
  · simp [h, Function.update_of_ne (Ne.symm h)]

variable {p : Platform Obj} {σ : State Obj} {books : Books} {l : Ledger} {e : Expr}
  {name : String} {size time : Int}

theorem timesValue_charge (l : Ledger) (k : Nat) (size : Int) (times : List Int) :
    ((l.charge k size times).timesValue n : Value Obj)
      = .array (((List.range n).map fun j => .array ((l j).2.map .int)).set k
        (.array ((l k).2.map .int ++ times.map .int))) := by
  rw [set_map_range]
  unfold Ledger.timesValue
  refine congrArg Value.array (List.map_congr_left fun j _ => ?_)
  by_cases h : j = k
  · subst h
    simp [Ledger.charge]
  · simp [Ledger.charge, h]

theorem itersValue_charge (l : Ledger) (k : Nat) (size : Int) (times : List Int) :
    ((l.charge k size times).itersValue n : Value Obj)
      = .array (((List.range n).map fun j => .int (l j).1).set k (.int ((l k).1 + size))) := by
  rw [set_map_range]
  unfold Ledger.itersValue
  refine congrArg Value.array (List.map_congr_left fun j _ => ?_)
  by_cases h : j = k
  · subst h
    simp [Ledger.charge]
  · simp [Ledger.charge, h]

/-- **The code that follows a kernel enters its run in the ledger.** -/
theorem does_charge (hne : books.1 ≠ books.2) (hk : Kept books n l σ.frames) (h : k < n)
    (he : eval p σ e = some (.int time)) (hs : σ.frames.value? name = some (.int size))
    (hname : name ≠ books.1) :
    Does p [.expr (.method (element books.1 (.int k)) "push_back" [e]),
        .addAssign (element books.2 (.int k)) (.ident name)] σ
      { σ with frames := book books n (l.charge k size [time]) σ.frames } := by
  have hpush := exec_pushBack (show eval p σ (.int k) = some (.int k) from rfl) hk.times
    (getElem?_map_range _ h) he
  rw [show [Value.int time] = [time].map Value.int from rfl, ← timesValue_charge l k size] at hpush
  refine .cons hpush ?_
  set τ : State Obj :=
    { σ with frames := σ.frames.put books.1 ((l.charge k size [time]).timesValue n) } with hτ
  have hiters : τ.frames.value? books.2 = some (l.itersValue n) := by
    rw [hτ, Frames.value?_put_of_ne hne.symm, hk.iters]
  have hsize : eval p τ (.ident name) = some (.int size) := by
    rw [← hs, ← Frames.value?_put_of_ne hname]
    rfl
  have hadd := exec_addAssign_element (show eval p τ (.int k) = some (.int k) from rfl) hiters
    (getElem?_map_range _ h) hsize
  rw [← itersValue_charge l k size [time]] at hadd
  exact .single hadd

end Entries

end SparseTiling.Executor
