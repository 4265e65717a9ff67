import SparseTiling.Proofs.Layout.Unbroken

/-!
# Layouts as greedy fills

A layout looks ahead group by group, over a stack of pending parts. Where every possible
break is a group of its own, all this comes to one simple rule, applied from left to right:
a break is a space if the text up to the next break fits on the line, and a new line
otherwise.

* `Stretch`, `fill`: texts and possible breaks in a row, and the rule.
* `Doc.stretches`: the texts and possible breaks of a document.
* `Doc.Soft`: every possible break is a group of its own.
* `Doc.layout_eq_fill`: the layout of a soft document is the greedy fill.
* `linesFrom`, `width_le_of_space`: a line with a space at a possible break is within the
  width.
-/

namespace SparseTiling

namespace Layout

/-- What is filled into lines: texts, and possible breaks with the indentation of the line
after them. -/
inductive Stretch
  | text (s : String)
  | soft (indent : Nat)
  deriving DecidableEq

/-- The columns of a stretch that is not broken. -/
def Stretch.width : Stretch → Nat
  | .text s => Text.width s
  | .soft _ => 1

/-- What a stretch prints on the same line. -/
def Stretch.kept : Stretch → Piece
  | .text s => .text s
  | .soft _ => .space

/-- The columns of stretches on one line. -/
def span (ts : List Stretch) : Nat := (ts.map Stretch.width).sum

/-- The columns up to the next possible break, or to the end. -/
def reach : List Stretch → Nat
  | [] => 0
  | .text s :: rest => Text.width s + reach rest
  | .soft _ :: _ => 0

/-- **The greedy fill** from column `col` on: a possible break is a space if what follows up
to the next one fits after it. -/
def fill (width col : Nat) : List Stretch → List Piece
  | [] => []
  | .text s :: rest => .text s :: fill width (col + Text.width s) rest
  | .soft indent :: rest =>
    if col + 1 + reach rest ≤ width then .space :: fill width (col + 1) rest
    else .newline indent :: fill width indent rest

/-- The text of a greedy fill. -/
def fillText (width : Nat) (ts : List Stretch) : String :=
  String.ofList (chars (fill width 0 ts))

/-- The text with all possible breaks as spaces. -/
def flatText (ts : List Stretch) : String := String.ofList (chars (ts.map Stretch.kept))

variable {width col : Nat} {ts rest : List Stretch}

@[simp] theorem span_nil : span [] = 0 := rfl

@[simp] theorem span_cons (t : Stretch) : span (t :: ts) = t.width + span ts := by
  simp [span]

@[simp] theorem span_append : span (ts ++ rest) = span ts + span rest := by
  simp [span]

theorem reach_append_le : reach (ts ++ rest) ≤ span ts + reach rest := by
  induction ts with
  | nil => simp
  | cons t ts ih =>
    cases t with
    | text s =>
      simp only [List.cons_append, reach, span_cons, Stretch.width]
      omega
    | soft indent => simp [reach]

/-- Stretches that fit on the line together with what follows them stay on it. -/
theorem fill_append_of_fits
    (h : (∃ i, .soft i ∈ ts) → col + span ts + reach rest ≤ width) :
    fill width col (ts ++ rest) = ts.map Stretch.kept ++ fill width (col + span ts) rest := by
  induction ts generalizing col with
  | nil => rfl
  | cons t ts ih =>
    rw [span_cons] at h
    have hrest : fill width (col + t.width) (ts ++ rest) =
        ts.map Stretch.kept ++ fill width (col + t.width + span ts) rest := by
      apply ih
      rintro ⟨i, hi⟩
      have := h ⟨i, List.mem_cons_of_mem _ hi⟩
      omega
    rw [span_cons, ← Nat.add_assoc, List.map_cons, List.cons_append, List.cons_append]
    cases t with
    | text s => exact congrArg (Piece.text s :: ·) hrest
    | soft i =>
      have hfits : col + 1 + reach (ts ++ rest) ≤ width := by
        have hall := h ⟨i, List.mem_cons_self⟩
        have hreach : reach (ts ++ rest) ≤ span ts + reach rest := reach_append_le
        simp only [Stretch.width] at hall
        omega
      rw [fill, if_pos hfits]
      exact congrArg (Piece.space :: ·) hrest

end Layout

open Layout

/-! ## Stretches of a document -/

namespace Doc

/-- The stretches of a document with indentation `indent`. A line that is broken at the end
of the document is indented like the next part, if there is one. -/
def stretches : Doc → Nat → Option Nat → List Stretch
  | .nil, _, _ => []
  | .text s, _, _ => [.text s]
  | .line, indent, next => [.soft (next.getD indent)]
  | .append l r, indent, next => l.stretches indent (some indent) ++ r.stretches indent next
  | .nest amount d, indent, next => d.stretches (indent + amount) next
  | .group d, indent, next => d.stretches indent next

/-- Every possible break is a group of its own. -/
def Soft : Doc → Prop
  | .nil | .text _ => True
  | .line => False
  | .append l r => l.Soft ∧ r.Soft
  | .nest _ d => d.Soft
  | .group d => d = .line ∨ d.Soft

end Doc

namespace Layout

variable {width col : Nat} {stack : List Part}

/-- The stretches of the parts on a stack. -/
def stackStretches : List Part → List Stretch
  | [] => []
  | p :: stack => p.doc.stretches p.indent (stack.head?.map (·.indent)) ++ stackStretches stack

/-- The stretches of a document, kept on one line, are its text on one line. -/
theorem chars_kept_stretches (d : Doc) (i : Nat) (next : Option Nat) :
    chars ((d.stretches i next).map Stretch.kept) = d.flat := by
  induction d generalizing i next with
  | nil => rfl
  | text s => simp [Doc.stretches, chars, Stretch.kept, Piece.toString, Doc.flat, Doc.marks]
  | line =>
    simp [Doc.stretches, chars, Stretch.kept, Piece.toString, Doc.flat, Doc.marks, Marks.flat]
  | append l r ihl ihr =>
    rw [Doc.stretches, List.map_append, chars, List.flatMap_append, ← chars, ← chars, ihl, ihr]
    exact Marks.flat_append.symm
  | nest amount d ih => exact ih (i + amount) next
  | group d ih => exact ih i next

theorem nextIndent_eq (own : Nat) (stack : List Part) :
    nextIndent own stack = (stack.head?.map (·.indent)).getD own := by
  cases stack <;> rfl

-- The equations of a recursive definition are proved when a simp set first takes it in. Proofs run
-- side by side and would each prove those of the walk again, so it is taken in once before them. The
-- attribute ends with the section: no later proof unfolds the walk unless it says so.
section Equations

attribute [local simp] fits place

end Equations

/-! ## Looking ahead -/

/-- A flat document that fits takes its columns, and what follows fits after it. -/
theorem fits_flat {work : List (Mode × Doc)} (d : Doc) (i : Nat) (next : Option Nat)
    (h : fits width col ((.flat, d) :: work) = true) :
    fits width (col + span (d.stretches i next)) work = true ∧
      (col ≤ width ∨ (∃ k, .soft k ∈ d.stretches i next) →
        col + span (d.stretches i next) ≤ width) := by
  induction d generalizing col work i next with
  | nil =>
    rw [fits] at h
    simpa [Doc.stretches] using h
  | text s =>
    rw [fits] at h
    split at h
    · contradiction
    · simp only [Doc.stretches, span_cons, span_nil, Stretch.width, Nat.add_zero]
      exact ⟨h, fun _ => by omega⟩
  | line =>
    rw [fits] at h
    split at h
    · contradiction
    · simp only [Doc.stretches, span_cons, span_nil, Stretch.width, Nat.add_zero]
      exact ⟨h, fun _ => by omega⟩
  | append l r ihl ihr =>
    rw [fits] at h
    obtain ⟨hr, hl⟩ := ihl i (some i) h
    obtain ⟨hwork, hr⟩ := ihr i next hr
    simp only [Doc.stretches, span_append, ← Nat.add_assoc, List.mem_append]
    refine ⟨hwork, ?_⟩
    -- once a column is within the width, all later ones are
    rintro (hcol | ⟨k, hk | hk⟩)
    · exact hr (.inl (hl (.inl hcol)))
    · exact hr (.inl (hl (.inr ⟨k, hk⟩)))
    · exact hr (.inr ⟨k, hk⟩)
  | nest amount d ih =>
    rw [fits] at h
    exact ih (i + amount) next h
  | group d ih =>
    rw [fits] at h
    exact ih i next h

/-- Looking ahead from a column within the width, `work` asks for the room of `ts` up to the
next possible break. -/
def LooksLike (width : Nat) (work : List (Mode × Doc)) (ts : List Stretch) : Prop :=
  ∀ col ≤ width, fits width col work = decide (col + reach ts ≤ width)

theorem LooksLike.cons {work : List (Mode × Doc)} {ts : List Stretch} (d : Doc) (i : Nat)
    (next : Option Nat) (h : LooksLike width work ts) :
    LooksLike width ((.broken, d) :: work) (d.stretches i next ++ ts) := by
  induction d generalizing work ts i next with
  | nil =>
    intro col hcol
    rw [fits]
    exact h col hcol
  | text s =>
    intro col hcol
    rw [fits]
    simp only [Doc.stretches, List.cons_append, List.nil_append, reach]
    split
    · next hover => exact (decide_eq_false (by omega)).symm
    · next hwithin => rw [h _ (by omega), Nat.add_assoc]
  | line =>
    intro col hcol
    rw [fits]
    simpa [Doc.stretches, reach] using hcol
  | append l r ihl ihr =>
    intro col hcol
    rw [fits, Doc.stretches, List.append_assoc]
    exact ihl i (some i) (ihr i next h) col hcol
  | nest amount d ih =>
    intro col hcol
    rw [fits]
    exact ih (i + amount) next h col hcol
  | group d ih =>
    intro col hcol
    rw [fits]
    exact ih i next h col hcol

theorem looksLike_stack (width : Nat) (stack : List Part) :
    LooksLike width (stack.map fun p => (.broken, p.doc)) (stackStretches stack) := by
  induction stack with
  | nil =>
    intro col hcol
    rw [List.map_nil, fits]
    simpa [stackStretches, reach] using hcol
  | cons p stack ih => exact ih.cons p.doc p.indent _

/-! ## Placing -/

/-- A flat document stays on the line. -/
theorem place_flat (d : Doc) (j i : Nat) (next : Option Nat) :
    place width col (⟨j, .flat, d⟩ :: stack) = (d.stretches i next).map Stretch.kept ++
      place width (col + span (d.stretches i next)) stack := by
  induction d generalizing col stack j i next with
  | nil =>
    rw [place]
    rfl
  | text s =>
    rw [place]
    rfl
  | line =>
    rw [place]
    rfl
  | append l r ihl ihr =>
    rw [place, ihl j i (some i), ihr j i next, Doc.stretches, List.map_append, span_append,
      List.append_assoc, Nat.add_assoc]
  | nest amount d ih => rw [place, ih (j + amount) (i + amount) next, Doc.stretches]
  | group d ih => rw [place, ih j i next, Doc.stretches]

/-- The layout of a stack is the greedy fill, from every column. -/
def Fills (width : Nat) (stack : List Part) : Prop :=
  ∀ col, place width col stack = fill width col (stackStretches stack)

theorem fills_softBreak (i : Nat) (h : Fills width stack) :
    Fills width (⟨i, .broken, .group .line⟩ :: stack) := by
  intro col
  have hlook : groupFits width col .line stack =
      decide (col + 1 + reach (stackStretches stack) ≤ width) := by
    rw [groupFits, fits]
    split
    · next hover => exact (decide_eq_false (by omega)).symm
    · next hwithin => exact looksLike_stack width stack (col + 1) (by omega)
  rw [place, hlook]
  simp only [stackStretches, Doc.stretches, List.cons_append, List.nil_append, fill]
  by_cases hfits : col + 1 + reach (stackStretches stack) ≤ width
  · rw [decide_eq_true hfits, if_pos hfits, ← h]
    simp [place]
  · rw [decide_eq_false hfits, if_neg hfits, ← h, ← nextIndent_eq]
    simp [place]

/-- **A soft document on top of a stack** is filled like the rest. A group that fits is
filled flat, because what fits as a whole fits up to every break; one that does not fit
leaves the decision to its parts. -/
theorem Fills.cons {d : Doc} (hd : d.Soft) (i : Nat) (h : Fills width stack) :
    Fills width (⟨i, .broken, d⟩ :: stack) := by
  induction d generalizing stack i with
  | nil =>
    intro col
    rw [place]
    exact h col
  | text s =>
    intro col
    rw [place, h]
    rfl
  | line => exact absurd hd id
  | append l r ihl ihr =>
    intro col
    rw [place, ihl hd.1 i (ihr hd.2 i h)]
    simp [stackStretches, Doc.stretches]
  | nest amount d ih =>
    intro col
    rw [place, ih hd (i + amount) h]
    rfl
  | group d ih =>
    rcases hd with rfl | hd
    · exact fills_softBreak i h
    · intro col
      rw [place]
      by_cases hfits : groupFits width col d stack = true
      · rw [if_pos hfits, place_flat d i i (stack.head?.map (·.indent)), h]
        obtain ⟨hrest, hroom⟩ := fits_flat d i (stack.head?.map (·.indent)) hfits
        refine (fill_append_of_fits fun hsoft => ?_).symm
        have hwithin := hroom (.inr hsoft)
        rw [looksLike_stack width stack _ hwithin] at hrest
        exact of_decide_eq_true hrest
      · rw [if_neg hfits, ih hd i h]
        rfl

end Layout

/-- **The layout of a soft document is the greedy fill of its stretches.** -/
theorem Doc.layout_eq_fill {d : Doc} (h : d.Soft) (width : Nat) :
    d.layout width = fill width 0 (d.stretches 0 none) := by
  have hempty : Fills width [] := by
    intro col
    rw [place]
    rfl
  rw [layout, hempty.cons h 0 0]
  simp [stackStretches]

/-! ## Documents that are built -/

/-- The stretch of a text, unless it is empty. -/
def Layout.Stretch.ofText (s : String) : List Stretch := if s = "" then [] else [.text s]

/-- Stretches of items in a list whose broken lines are indented by `indent`. -/
def Layout.separated (indent : Nat) : List (List Stretch) → List Stretch
  | [] => []
  | first :: rest => first ++ rest.flatMap fun item => .text "," :: .soft indent :: item

/-- A list between texts; its broken lines are indented by `indent`. -/
def Layout.enclosed (opening : String) (indent : Nat) (items : List (List Stretch))
    (closing : String) : List Stretch :=
  Stretch.ofText opening ++ separated indent items ++ Stretch.ofText closing

namespace Doc

variable {d e : Doc} {items : List Doc} {i : Nat} {next : Option Nat}

theorem soft_ofText (s : String) : (ofText s).Soft := by
  unfold ofText
  split <;> trivial

theorem Soft.cat (hd : d.Soft) (he : e.Soft) : (d ++ e).Soft := by
  change (Doc.cat d e).Soft
  unfold Doc.cat
  split
  · exact he
  · exact hd
  · exact ⟨hd, he⟩

theorem Soft.indent (hd : d.Soft) (amount : Nat) : (d.indent amount).Soft := by
  cases d <;> exact hd

theorem Soft.grouped (hd : d.Soft) : d.grouped.Soft := by
  cases d with
  | nil => trivial
  | text | line | append | nest | group => exact .inr hd

theorem soft_commaSeparated (h : ∀ d ∈ items, d.Soft) : (commaSeparated items).Soft := by
  cases items with
  | nil => trivial
  | cons first rest =>
    rw [List.forall_mem_cons] at h
    obtain ⟨hfirst, hrest⟩ := h
    unfold commaSeparated
    induction rest generalizing first with
    | nil => exact hfirst
    | cons item rest ih =>
      rw [List.forall_mem_cons] at hrest
      have hbreak : softBreak.Soft := .inl rfl
      exact ih _ ((hfirst.cat ((soft_ofText ",").cat hbreak)).cat hrest.1) hrest.2

theorem soft_bracketed (opening closing : String) (h : ∀ d ∈ items, d.Soft) :
    (bracketed opening items closing).Soft :=
  (((soft_ofText opening).cat ((soft_commaSeparated h).indent continuation)).cat
    (soft_ofText closing)).grouped

/-- The stretches of a document at each indentation, whatever follows it. So no possible
break stands at its end. -/
def Shows (d : Doc) (ts : Nat → List Stretch) : Prop := ∀ i next, d.stretches i next = ts i

variable {ts us : Nat → List Stretch}

theorem shows_ofText (s : String) : (ofText s).Shows fun _ => Stretch.ofText s := by
  intro i next
  unfold ofText Stretch.ofText
  split <;> rfl

theorem stretches_cat (he : e ≠ .nil) (i : Nat) (next : Option Nat) :
    (d ++ e).stretches i next = d.stretches i (some i) ++ e.stretches i next := by
  change (cat d e).stretches i next = _
  unfold cat
  split
  · rfl
  · exact absurd rfl he
  · rfl

theorem Shows.cat (hd : d.Shows ts) (he : e.Shows us) : (d ++ e).Shows fun i => ts i ++ us i := by
  intro i next
  by_cases hnil : e = .nil
  · subst hnil
    have hcat : Doc.cat d .nil = d := by cases d <;> rfl
    have hus : us i = [] := (he i next).symm
    change (Doc.cat d .nil).stretches i next = ts i ++ us i
    rw [hcat, hus, List.append_nil, hd]
  · rw [stretches_cat hnil, hd, he]

theorem Shows.indent (hd : d.Shows ts) (amount : Nat) :
    (d.indent amount).Shows fun i => ts (i + amount) := by
  intro i next
  have hinner := hd (i + amount) next
  cases d <;> exact hinner

theorem Shows.grouped (hd : d.Shows ts) : d.grouped.Shows ts := by
  intro i next
  have hinner := hd i next
  cases d <;> exact hinner

section Lists

variable {α : Type} {items : List α} {doc : α → Doc} {shown : α → Nat → List Stretch}

/-- The break between two items takes its indentation from the second one. -/
theorem Shows.item (hd : d.Shows ts) (hne : e ≠ .nil) (he : e.Shows us) :
    (d ++ (ofText "," ++ softBreak) ++ e).Shows fun i => ts i ++ .text "," :: .soft i :: us i := by
  intro i next
  have hbreak : (ofText "," ++ softBreak).stretches i (some i) = [.text ",", .soft i] := rfl
  rw [stretches_cat hne, stretches_cat (by decide), hd, hbreak, he]
  simp

/-- Items with a text keep their breaks inside the list. -/
theorem shows_commaSeparated (hne : ∀ a ∈ items, doc a ≠ .nil)
    (h : ∀ a ∈ items, (doc a).Shows (shown a)) :
    (commaSeparated (items.map doc)).Shows fun i =>
      Layout.separated i (items.map fun a => shown a i) := by
  cases items with
  | nil => exact fun _ _ => rfl
  | cons first rest =>
    rw [List.forall_mem_cons] at hne h
    obtain ⟨-, hne⟩ := hne
    obtain ⟨hfirst, h⟩ := h
    simp only [commaSeparated, Layout.separated, List.map_cons]
    -- the items so far are one document
    generalize doc first = d at hfirst ⊢
    generalize shown first = ts at hfirst ⊢
    induction rest generalizing d ts with
    | nil => simpa using hfirst
    | cons a rest ih =>
      rw [List.forall_mem_cons] at hne h
      simpa using ih hne.2 h.2 _ _ (hfirst.item hne.1 h.1)

theorem shows_bracketed (opening closing : String) (hne : ∀ a ∈ items, doc a ≠ .nil)
    (h : ∀ a ∈ items, (doc a).Shows (shown a)) :
    (bracketed opening (items.map doc) closing).Shows fun i =>
      Layout.enclosed opening (i + continuation)
        (items.map fun a => shown a (i + continuation)) closing :=
  (((shows_ofText opening).cat ((shows_commaSeparated hne h).indent continuation)).cat
    (shows_ofText closing)).grouped

end Lists

theorem toList_render (width : Nat) : (d.render width).toList = chars (d.layout width) := by
  simp [render, chars, String.toList_join, List.flatMap_map]

/-- **The text of a soft document is the greedy fill of what it shows.** -/
theorem render_eq_fill (hsoft : d.Soft) (hd : d.Shows ts) (width : Nat) :
    d.render width = fillText width (ts 0) := by
  rw [fillText, ← hd 0 none, ← layout_eq_fill hsoft, ← toList_render, String.ofList_toList]

/-- What a document shows, on one line, is its text on one line. -/
theorem flatText_eq (hd : d.Shows ts) : flatText (ts 0) = String.ofList d.flat := by
  rw [flatText, ← hd 0 none, chars_kept_stretches]

/-- **A soft document that fits stays on one line.** -/
theorem Soft.render_of_fits {width : Nat} (hsoft : d.Soft) (hd : d.Shows ts)
    (h : span (ts 0) ≤ width) : d.render width = String.ofList d.flat := by
  have hfill : fill width 0 (ts 0 ++ []) = (ts 0).map Stretch.kept ++ fill width _ [] :=
    fill_append_of_fits fun _ => by simpa [reach] using h
  rw [List.append_nil, fill, List.append_nil] at hfill
  rw [render_eq_fill hsoft hd, fillText, hfill, ← flatText_eq hd, flatText]

end Doc

/-! ## Lines -/

namespace Layout

/-- A line of a layout: its indentation, then texts and spaces at possible breaks. -/
structure Line where
  indent : Nat
  /-- Where there is no text, a possible break was kept as a space. -/
  items : List (Option String)
  deriving DecidableEq

namespace Line

/-- What stands on a line, a space at a possible break like a text. -/
def texts (l : Line) : List String := l.items.map (·.getD " ")

/-- The columns that a line takes. -/
def width (l : Line) : Nat := l.indent + (l.texts.map Text.width).sum

/-- The characters of a line. -/
def chars (l : Line) : List Char := List.replicate l.indent ' ' ++ l.texts.flatMap String.toList

/-- The line with one item more. -/
def push (l : Line) (item : Option String) : Line := { l with items := l.items ++ [item] }

variable (l : Line) (item : Option String)

theorem width_push : (l.push item).width = l.width + Text.width (item.getD " ") := by
  simp [width, texts, push, Nat.add_assoc]

theorem chars_push : (l.push item).chars = l.chars ++ (item.getD " ").toList := by
  simp [chars, texts, push]

end Line

/-- The lines of a layout that goes on with `l`. -/
def linesFrom (l : Line) : List Piece → List Line
  | [] => [l]
  | .text s :: rest => linesFrom (l.push (some s)) rest
  | .space :: rest => linesFrom (l.push none) rest
  | .newline indent :: rest => l :: linesFrom ⟨indent, []⟩ rest

/-- The lines of a layout. -/
def lines (pieces : List Piece) : List Line := linesFrom ⟨0, []⟩ pieces

variable {width col : Nat} {ts : List Stretch} {pieces : List Piece} {l m : Line}

/-- The lines of a layout are its text. -/
theorem chars_linesFrom (l : Line) (pieces : List Piece) :
    (linesFrom l pieces).flatMap (fun m => m.chars ++ ['\n']) =
      l.chars ++ chars pieces ++ ['\n'] := by
  fun_induction linesFrom l pieces with
  | case1 l => simp [chars]
  | case2 l s rest ih => rw [ih, Line.chars_push]; simp [chars, Piece.toString]
  | case3 l rest ih => rw [ih, Line.chars_push]; simp [chars, Piece.toString]
  | case4 l indent rest ih =>
    have hnew : (Line.mk indent []).chars = List.replicate indent ' ' := by
      simp [Line.chars, Line.texts]
    have hpieces : chars (.newline indent :: rest) =
        '\n' :: (List.replicate indent ' ' ++ chars rest) := by
      simp [chars, Piece.toString]
    rw [List.flatMap_cons, ih, hnew, hpieces]
    simp

/-- The texts on the lines of a layout are its texts. -/
theorem items_linesFrom (h : m ∈ linesFrom l pieces) {s : String} (hs : some s ∈ m.items) :
    some s ∈ l.items ∨ .text s ∈ pieces := by
  fun_induction linesFrom l pieces with
  | case1 l =>
    obtain rfl := List.mem_singleton.1 h
    exact .inl hs
  | case2 l t rest ih =>
    rcases ih h with hl | hrest
    · rcases List.mem_append.1 hl with hl | ht
      · exact .inl hl
      · obtain rfl := Option.some.inj (List.mem_singleton.1 ht)
        exact .inr List.mem_cons_self
    · exact .inr (List.mem_cons_of_mem _ hrest)
  | case3 l rest ih =>
    rcases ih h with hl | hrest
    · rcases List.mem_append.1 hl with hl | ht
      · exact .inl hl
      · exact absurd (List.mem_singleton.1 ht) (by simp)
    · exact .inr (List.mem_cons_of_mem _ hrest)
  | case4 l indent rest ih =>
    rcases List.mem_cons.1 h with rfl | h
    · exact .inl hs
    · rcases ih h with hl | hrest
      · exact absurd hl List.not_mem_nil
      · exact .inr (List.mem_cons_of_mem _ hrest)

/-- **A line with a space at a possible break is within the width.** The space was printed
because everything up to the next break fits; so it is kept that the line has room up to the
next break once it has such a space. -/
theorem width_le_of_space (hcol : l.width = col)
    (hroom : none ∈ l.items → col + reach ts ≤ width) :
    ∀ m ∈ linesFrom l (fill width col ts), none ∈ m.items → m.width ≤ width := by
  induction ts generalizing l col with
  | nil =>
    intro m hm hspace
    obtain rfl := List.mem_singleton.1 hm
    have := hroom hspace
    simp only [reach] at this
    omega
  | cons t ts ih =>
    cases t with
    | text s =>
      rw [fill, linesFrom]
      apply ih
      · rw [Line.width_push, hcol]
        rfl
      · intro hspace
        have hl : none ∈ l.items := by simpa [Line.push] using hspace
        have := hroom hl
        simp only [reach] at this
        omega
    | soft indent =>
      rw [fill]
      split
      · next hfits =>
        rw [linesFrom]
        apply ih
        · rw [Line.width_push, hcol]
          rfl
        · exact fun _ => hfits
      · rw [linesFrom]
        intro m hm hspace
        rcases List.mem_cons.1 hm with rfl | hm
        · have := hroom hspace
          omega
        · -- the new line has no space yet
          refine ih ?_ ?_ m hm hspace
          · simp [Line.width, Line.texts]
          · exact fun hnone => absurd hnone List.not_mem_nil

theorem width_le_of_mem_lines {d : Doc} (hd : d.Soft) (hl : l ∈ lines (d.layout width))
    (hspace : none ∈ l.items) : l.width ≤ width := by
  have hstart : (Line.mk 0 []).width = 0 := rfl
  rw [Doc.layout_eq_fill hd] at hl
  exact width_le_of_space hstart (fun hnone => absurd hnone List.not_mem_nil) l hl hspace

theorem text_of_mem_fill {s : String} (h : .text s ∈ fill width col ts) : .text s ∈ ts := by
  fun_induction fill width col ts with
  | case1 => exact absurd h List.not_mem_nil
  | case2 col t rest ih =>
    rcases List.mem_cons.1 h with heq | h
    · obtain rfl := Piece.text.inj heq
      exact List.mem_cons_self
    · exact List.mem_cons_of_mem _ (ih h)
  | case3 col indent rest _ ih | case4 col indent rest _ ih =>
    rcases List.mem_cons.1 h with heq | h
    · exact absurd heq (by simp)
    · exact List.mem_cons_of_mem _ (ih h)

/-- Lines consist of blanks and of characters of the document. -/
theorem mem_flat_of_mem_lines {d : Doc} (hd : d.Soft) (hl : l ∈ lines (d.layout width)) {c : Char}
    (hc : c ∈ l.chars) : c = ' ' ∨ c ∈ d.flat := by
  rcases List.mem_append.1 hc with hc | hc
  · exact .inl (List.eq_of_mem_replicate hc)
  · obtain ⟨text, htext, hc⟩ := List.mem_flatMap.1 hc
    obtain ⟨item, hitem, rfl⟩ := List.mem_map.1 htext
    cases item with
    | none => exact .inl (by simpa using hc)
    | some s =>
      right
      rcases items_linesFrom hl hitem with hempty | hpiece
      · exact absurd hempty List.not_mem_nil
      · rw [Doc.layout_eq_fill hd] at hpiece
        rw [← chars_kept_stretches d 0 none]
        have hkept := List.mem_map_of_mem (f := Stretch.kept) (text_of_mem_fill hpiece)
        exact List.mem_flatMap.2 ⟨.text s, hkept, hc⟩

/-- A line of ASCII is as wide as it is long. -/
theorem Line.width_ascii (h : ∀ c ∈ l.chars, c.toNat < 0x80) : l.width = l.chars.length := by
  have htexts : ∀ s ∈ l.texts, Text.width s = s.toList.length := by
    intro s hs
    rw [Text.width_ascii, String.length_toList]
    intro c hc
    exact h c (List.mem_append_right _ (List.mem_flatMap.2 ⟨s, hs, hc⟩))
  rw [Line.width, Line.chars, List.length_append, List.length_replicate, List.length_flatMap,
    List.map_congr_left htexts]

end Layout

end SparseTiling
