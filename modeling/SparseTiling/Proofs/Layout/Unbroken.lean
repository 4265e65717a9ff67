import Mathlib.Tactic
import SparseTiling.Layout.Fill

/-!
# Texts without their line breaks

A layout decides no more than where lines are broken: whatever the width, the text is
that of the document with each possible break printed as a blank or as a new line with its
indentation. If no blank follows a possible break, joining the lines again therefore gives
one text for all widths.

* `joinLines`: the text with each new line and the blanks after it as one blank.
* `Doc.marks`: what a document prints, with the possible breaks marked.
* `spells_render`: every layout spells the marks.
* `joinLines_render`: a **tidy** document has one text once its lines are joined.
-/

namespace SparseTiling

/-- Join lines: each new line, with the blanks after it, becomes one blank. After a
new line, blanks are passed over. -/
def joinChars (afterBreak : Bool) : List Char → List Char
  | [] => []
  | c :: s =>
    if c = '\n' then ' ' :: joinChars true s
    else if afterBreak ∧ c = ' ' then joinChars true s
    else c :: joinChars false s

/-- The text with each new line and the blanks after it replaced by one blank. -/
def joinLines (text : String) : String := String.ofList (joinChars false text.toList)

/-! ## Marks and their spellings -/

/-- What is printed: characters, and possible line breaks between them. -/
abbrev Marks := List (Option Char)

namespace Marks

/-- The marks of a text. -/
def ofChars (s : List Char) : Marks := s.map some

/-- The text on one line. -/
def flat (ms : Marks) : List Char := ms.map fun m => m.getD ' '

/-- A text prints these marks: a possible break is a blank, or a new line that is indented
in some way. -/
inductive Spells : Marks → List Char → Prop
  | nil : Spells [] []
  | char {ms : Marks} {s : List Char} (c : Char) : Spells ms s → Spells (some c :: ms) (c :: s)
  | blank {ms : Marks} {s : List Char} : Spells ms s → Spells (none :: ms) (' ' :: s)
  | newline {ms : Marks} {s : List Char} (n : Nat) :
      Spells ms s → Spells (none :: ms) ('\n' :: (List.replicate n ' ' ++ s))

/-- The first mark is a character, with a given property. -/
def Starts (p : Char → Prop) (ms : Marks) : Prop := ∃ c t, ms = some c :: t ∧ p c

/-- No new lines but the possible breaks, and something other than a blank after each of
those. -/
def Tidy : Marks → Prop
  | [] => True
  | none :: ms => Starts (· ≠ ' ') ms ∧ Tidy ms
  | some c :: ms => c ≠ '\n' ∧ Tidy ms

variable {ms ns : Marks} {s t : List Char}

@[simp] theorem flat_cons (m : Option Char) : flat (m :: ms) = m.getD ' ' :: flat ms := rfl

@[simp] theorem flat_append : flat (ms ++ ns) = flat ms ++ flat ns := List.map_append

@[simp] theorem flat_ofChars : flat (ofChars s) = s := by simp [flat, ofChars]

theorem Spells.text (h : Spells ms t) : Spells (ofChars s ++ ms) (s ++ t) := by
  induction s with
  | nil => exact h
  | cons c s ih => exact .char c ih

theorem joinChars_replicate (n : Nat) :
    joinChars true (List.replicate n ' ' ++ s) = joinChars true s := by
  induction n with
  | zero => rfl
  | succ n ih => simp [List.replicate_succ, joinChars, ih]

/-- A text that starts with neither a blank nor a new line is joined alike on a new
line. -/
theorem joinChars_after {c : Char} (hblank : c ≠ ' ') (hline : c ≠ '\n') :
    joinChars true (c :: s) = joinChars false (c :: s) := by
  simp [joinChars, hblank, hline]

/-- **All spellings of tidy marks are joined to the text on one line.** -/
theorem joinChars_of_spells (h : Spells ms s) (htidy : ms.Tidy) : joinChars false s = ms.flat := by
  induction h with
  | nil => rfl
  | char c _ ih => simp [joinChars, htidy.1, ih htidy.2]
  | blank _ ih => simp [joinChars, ih htidy.2]
  | @newline ms s n hspells ih =>
    obtain ⟨⟨c, t, rfl, hblank⟩, htidy⟩ := htidy
    have hjoin := ih htidy
    -- what follows the break starts with a character, so the skipped blanks end there
    cases hspells with
    | char _ hrest =>
      simp only [joinChars, ↓reduceIte]
      rw [joinChars_replicate, joinChars_after hblank htidy.1, hjoin]
      rfl

/-! ## Tidy marks -/

variable {p q : Char → Prop}

theorem Starts.append (h : Starts p ms) : Starts p (ms ++ ns) := by
  obtain ⟨c, t, rfl, hc⟩ := h
  exact ⟨c, t ++ ns, rfl, hc⟩

theorem Starts.imp (hpq : ∀ c, p c → q c) (h : Starts p ms) : Starts q ms := by
  obtain ⟨c, t, rfl, hc⟩ := h
  exact ⟨c, t, rfl, hpq c hc⟩

theorem starts_ofChars {c : Char} (h : s = c :: t) (hc : p c) : Starts p (ofChars s) :=
  ⟨c, ofChars t, by rw [h]; rfl, hc⟩

theorem tidy_append (hm : ms.Tidy) (hn : ns.Tidy) : Tidy (ms ++ ns) := by
  induction ms with
  | nil => exact hn
  | cons m ms ih =>
    cases m with
    | some c => exact ⟨hm.1, ih hm.2⟩
    | none => exact ⟨hm.1.append, ih hm.2⟩

theorem tidy_ofChars (h : '\n' ∉ s) : Tidy (ofChars s) := by
  induction s with
  | nil => trivial
  | cons c s ih =>
    simp only [List.mem_cons, not_or] at h
    exact ⟨Ne.symm h.1, ih h.2⟩

end Marks

/-! ## Documents -/

namespace Doc

/-- What a document prints, at every width. -/
def marks : Doc → Marks
  | .nil => []
  | .text s => Marks.ofChars s.toList
  | .line => [none]
  | .append l r => l.marks ++ r.marks
  | .nest _ d => d.marks
  | .group d => d.marks

/-- A document on one line. -/
def flat (d : Doc) : List Char := d.marks.flat

variable {d e : Doc}

@[simp] theorem marks_ofText (s : String) : (ofText s).marks = Marks.ofChars s.toList := by
  unfold ofText
  split
  · next h => simp [h, marks, Marks.ofChars]
  · rfl

@[simp] theorem marks_cat : (d ++ e).marks = d.marks ++ e.marks := by
  change (cat d e).marks = d.marks ++ e.marks
  unfold cat
  split <;> simp [marks]

@[simp] theorem marks_indent (n : Nat) : (d.indent n).marks = d.marks := by
  cases d <;> rfl

@[simp] theorem marks_grouped : d.grouped.marks = d.marks := by
  cases d <;> rfl

@[simp] theorem flat_ofText (s : String) : (ofText s).flat = s.toList := by simp [flat]

@[simp] theorem flat_cat : (d ++ e).flat = d.flat ++ e.flat := by simp [flat]

/-- The marks of items that are separated by commas. -/
def separatedMarks : List Doc → Marks
  | [] => []
  | first :: rest => first.marks ++ rest.flatMap fun item => some ',' :: none :: item.marks

theorem marks_commaSeparated (items : List Doc) :
    (commaSeparated items).marks = separatedMarks items := by
  cases items with
  | nil => rfl
  | cons first rest =>
    simp only [commaSeparated, separatedMarks]
    induction rest generalizing first with
    | nil => simp
    | cons item rest ih =>
      rw [List.foldl_cons, ih]
      simp [softBreak, marks, Marks.ofChars]

@[simp] theorem marks_bracketed (opening : String) (items : List Doc) (closing : String) :
    (bracketed opening items closing).marks =
      Marks.ofChars opening.toList ++ separatedMarks items ++ Marks.ofChars closing.toList := by
  simp [bracketed, marks_commaSeparated]

@[simp] theorem flat_bracketed (opening : String) (items : List Doc) (closing : String) :
    (bracketed opening items closing).flat =
      opening.toList ++ (separatedMarks items).flat ++ closing.toList := by
  simp [flat]

@[simp] theorem flat_marks : d.marks.flat = d.flat := rfl

/-- Nothing but its possible breaks ends a line, and none of them is followed by a blank. -/
def Tidy (d : Doc) : Prop := d.marks.Tidy

theorem Tidy.cat (hd : d.Tidy) (he : e.Tidy) : (d ++ e).Tidy := by
  rw [Tidy, marks_cat]
  exact Marks.tidy_append hd he

theorem tidy_ofText {s : String} (h : '\n' ∉ s.toList) : (ofText s).Tidy := by
  rw [Tidy, marks_ofText]
  exact Marks.tidy_ofChars h

/-- Items that do not start with a blank may stand after a possible break. -/
theorem tidy_separatedMarks {items : List Doc} (htidy : ∀ d ∈ items, d.Tidy)
    (hstart : ∀ d ∈ items, d.marks.Starts (· ≠ ' ')) :
    (separatedMarks items).Tidy := by
  cases items with
  | nil => trivial
  | cons first rest =>
    refine Marks.tidy_append (htidy first List.mem_cons_self) ?_
    replace htidy := fun d hd => htidy d (List.mem_cons_of_mem _ hd)
    replace hstart := fun d hd => hstart d (List.mem_cons_of_mem _ hd)
    induction rest with
    | nil => trivial
    | cons item rest ih =>
      rw [List.flatMap_cons]
      refine Marks.tidy_append ⟨by decide, hstart item List.mem_cons_self,
        htidy item List.mem_cons_self⟩ (ih ?_ ?_)
      · exact fun d hd => htidy d (List.mem_cons_of_mem _ hd)
      · exact fun d hd => hstart d (List.mem_cons_of_mem _ hd)

theorem tidy_bracketed {opening closing : String} {items : List Doc}
    (hopening : '\n' ∉ opening.toList) (hclosing : '\n' ∉ closing.toList)
    (htidy : ∀ d ∈ items, d.Tidy) (hstart : ∀ d ∈ items, d.marks.Starts (· ≠ ' ')) :
    (bracketed opening items closing).Tidy := by
  rw [Tidy, marks_bracketed]
  exact Marks.tidy_append
    (Marks.tidy_append (Marks.tidy_ofChars hopening) (tidy_separatedMarks htidy hstart))
    (Marks.tidy_ofChars hclosing)

end Doc

/-! ## Layouts -/

namespace Layout

/-- The characters of a layout. -/
def chars (pieces : List Piece) : List Char := pieces.flatMap fun p => p.toString.toList

/-- The marks of the parts on a stack. -/
def stackMarks (stack : List Part) : Marks := stack.flatMap fun p => p.doc.marks

/-- **Whatever the width,** a layout prints the marks of its stack. -/
theorem spells_place (width col : Nat) (stack : List Part) :
    (stackMarks stack).Spells (chars (place width col stack)) := by
  -- text and possible breaks print something; all other parts only unfold on the stack
  fun_induction place width col stack with
  | case1 => exact .nil
  | case3 col _ _ s stack ih => simpa [stackMarks, chars, Doc.marks, Piece.toString] using ih.text
  | case4 col _ stack ih =>
    simpa [stackMarks, chars, Doc.marks, Piece.toString] using Marks.Spells.blank ih
  | case5 col i stack ih =>
    simpa [stackMarks, chars, Doc.marks, Piece.toString] using
      Marks.Spells.newline (nextIndent i stack) ih
  | case2 _ _ _ _ ih | case6 _ _ _ _ _ _ ih | case7 _ _ _ _ _ _ ih | case8 _ _ _ _ ih
  | case9 _ _ _ _ ih => simpa [stackMarks, Doc.marks] using ih

end Layout

namespace Doc

theorem spells_render (width : Nat) (d : Doc) : d.marks.Spells (d.render width).toList := by
  have h := Layout.spells_place width 0 [⟨0, .broken, d⟩]
  simpa [Layout.stackMarks, Layout.chars, render, layout, String.toList_join, List.flatMap_map]
    using h

/-- **A tidy document has one text once its lines are joined.** -/
theorem joinLines_render {d : Doc} (h : d.Tidy) (width : Nat) :
    joinLines (d.render width) = String.ofList d.flat := by
  rw [joinLines, Marks.joinChars_of_spells (spells_render width d) h, flat]

end Doc

end SparseTiling
