/-!
# Names

Sets, maps and loops arrive under decorated names: mesh names carry `/` and `#`
marks, and host programs qualify them with dots. Emitted code needs one plain
identifier for each, the **bare** name.

* `bare`: drop every mark, then keep what follows the last dot.
* `IsBare`: no mark and no dot is left.
* `isBare_bare`, `bare_eq_self`: every bare name is free of them, and a name
  free of them is its own bare name.
-/

namespace SparseTiling.Name

/-- Marks are dropped wherever they stand. -/
def isMark (c : Char) : Bool := c == '/' || c == '#'

/-- What follows the last dot, or everything if there is none. -/
def afterLastDot (cs : List Char) : List Char :=
  (cs.reverse.takeWhile (· != '.')).reverse

/-- The bare form of a name, on its characters. -/
def bareChars (cs : List Char) : List Char :=
  afterLastDot (cs.filter fun c => !isMark c)

/-- The bare form of a name: no marks, and no qualifier before the last dot. -/
def bare (name : String) : String := String.ofList (bareChars name.toList)

/-- A name is bare when it holds neither marks nor dots. -/
def IsBare (name : String) : Prop := ∀ c ∈ name.toList, isMark c = false ∧ c ≠ '.'

theorem isBare_iff {name : String} :
    IsBare name ↔ '/' ∉ name.toList ∧ '#' ∉ name.toList ∧ '.' ∉ name.toList := by
  constructor
  · intro h
    refine ⟨fun hc => ?_, fun hc => ?_, fun hc => (h '.' hc).2 rfl⟩
    · simpa [isMark] using (h '/' hc).1
    · simpa [isMark] using (h '#' hc).1
  · rintro ⟨hslash, hhash, hdot⟩ c hc
    refine ⟨?_, fun he => hdot (he ▸ hc)⟩
    have hs : c ≠ '/' := fun he => hslash (he ▸ hc)
    have hh : c ≠ '#' := fun he => hhash (he ▸ hc)
    simp [isMark, hs, hh]

theorem afterLastDot_sublist (cs : List Char) : (afterLastDot cs).Sublist cs := by
  have h := List.takeWhile_sublist (l := cs.reverse) (· != '.')
  simpa [afterLastDot] using h.reverse

theorem ne_dot_of_mem_afterLastDot {cs : List Char} {c : Char} (h : c ∈ afterLastDot cs) :
    c ≠ '.' := by
  rw [afterLastDot, List.mem_reverse] at h
  simpa using List.all_eq_true.mp (List.all_takeWhile (l := cs.reverse) (p := (· != '.'))) c h

theorem takeWhile_ne_dot {cs : List Char} (h : ∀ c ∈ cs, c ≠ '.') :
    cs.takeWhile (· != '.') = cs := by
  induction cs with
  | nil => rfl
  | cons c cs ih =>
    have hc : (c != '.') = true := by simpa using h c (by simp)
    rw [List.takeWhile_cons, hc, if_pos rfl, ih fun d hd => h d (by simp [hd])]

theorem afterLastDot_eq_self {cs : List Char} (h : ∀ c ∈ cs, c ≠ '.') : afterLastDot cs = cs := by
  rw [afterLastDot, takeWhile_ne_dot fun c hc => h c (List.mem_reverse.mp hc), List.reverse_reverse]

/-- **Bare names are bare.** -/
theorem isBare_bare (name : String) : IsBare (bare name) := by
  intro c hc
  rw [bare, String.toList_ofList, bareChars] at hc
  have hf := (afterLastDot_sublist _).subset hc
  exact ⟨by simpa using (List.mem_filter.mp hf).2, ne_dot_of_mem_afterLastDot hc⟩

/-- **A bare name is its own bare form.** -/
theorem bare_eq_self {name : String} (h : IsBare name) : bare name = name := by
  have hf : name.toList.filter (fun c => !isMark c) = name.toList := by
    rw [List.filter_eq_self]
    intro c hc
    simp [(h c hc).1]
  rw [bare, bareChars, hf, afterLastDot_eq_self fun c hc => (h c hc).2, String.ofList_toList]

theorem bare_bare (name : String) : bare (bare name) = bare name :=
  bare_eq_self (isBare_bare name)

end SparseTiling.Name
