import SparseTiling.Proofs.Code.Chunks
import SparseTiling.Proofs.Code.Emitted

/-!
# Literals in printed code

A line may be broken between the parts of an expression and gets a margin where it starts.
Neither happens inside a literal: its spelling has no possible break and no line end, so it
stands in the printed code in one piece, and whoever reads the code from its opening quote on
reads the text that it stands for.

* `Doc.Within`: all that a document prints stands in one piece in another one.
* `Expr.within_doc`, `Stmt.carries_exprs`: the parts of an expression in its document, and the
  expressions of a statement in what it is printed as.
* `infix_indented`: margins do not come into a text without line ends.
* `Literal.StandsIn`, `Literal.standsIn_render`: every literal of a program stands in its text.
-/

namespace SparseTiling

/-! ## Texts in one piece -/

namespace Marks

variable {ms ns : Marks} {s t : List Char}

/-- What spells marks in a row can be cut where the marks are. -/
theorem spells_append (h : Spells (ms ++ ns) t) :
    ∃ t₁ t₂, t = t₁ ++ t₂ ∧ Spells ms t₁ ∧ Spells ns t₂ := by
  induction ms generalizing t with
  | nil => exact ⟨[], t, rfl, .nil, h⟩
  | cons m ms ih =>
    cases h with
    | char c hrest =>
      obtain ⟨t₁, t₂, rfl, h₁, h₂⟩ := ih hrest
      exact ⟨c :: t₁, t₂, rfl, .char c h₁, h₂⟩
    | blank hrest =>
      obtain ⟨t₁, t₂, rfl, h₁, h₂⟩ := ih hrest
      exact ⟨' ' :: t₁, t₂, rfl, .blank h₁, h₂⟩
    | newline n hrest =>
      obtain ⟨t₁, t₂, rfl, h₁, h₂⟩ := ih hrest
      exact ⟨'\n' :: (List.replicate n ' ' ++ t₁), t₂, by simp, .newline n h₁, h₂⟩

theorem eq_of_spells_ofChars (h : Spells (ofChars s) t) : t = s := by
  induction s generalizing t with
  | nil => cases h; rfl
  | cons c s ih =>
    cases h with
    | char _ hrest => rw [ih hrest]

/-- Characters without a possible break between them stand together in every spelling. -/
theorem infix_of_spells (hs : ofChars s <:+: ms) (h : Spells ms t) : s <:+: t := by
  obtain ⟨before, after, rfl⟩ := hs
  obtain ⟨t₁, t₂, rfl, h₁, -⟩ := spells_append h
  obtain ⟨t₀, t₁, rfl, -, h₁⟩ := spells_append h₁
  obtain rfl := eq_of_spells_ofChars h₁
  exact ⟨t₀, t₂, rfl⟩

end Marks

namespace Doc

variable {d e : Doc}

/-- All that one document prints stands in one piece in the other. -/
def Within (d e : Doc) : Prop := d.marks <:+: e.marks

theorem Within.refl (d : Doc) : d.Within d := List.infix_rfl

theorem Within.left (h : d.Within e) (f : Doc) : d.Within (e ++ f) := by
  rw [Within, marks_cat]
  exact h.trans (List.prefix_append _ _).isInfix

theorem Within.right (h : d.Within e) (f : Doc) : d.Within (f ++ e) := by
  rw [Within, marks_cat]
  exact h.trans (List.suffix_append _ _).isInfix

theorem infix_separatedMarks {items : List Doc} (h : e ∈ items) :
    e.marks <:+: separatedMarks items := by
  cases items with
  | nil => cases h
  | cons first rest =>
    rcases List.mem_cons.1 h with rfl | h
    · exact (List.prefix_append _ _).isInfix
    · obtain ⟨before, after, rfl⟩ := List.append_of_mem h
      refine ⟨first.marks ++ (before.flatMap fun item => some ',' :: none :: item.marks) ++
        [some ',', none], after.flatMap fun item => some ',' :: none :: item.marks, ?_⟩
      simp [separatedMarks]

theorem Within.bracketed {items : List Doc} (h : d.Within e) (hitem : e ∈ items)
    (opening closing : String) : d.Within (Doc.bracketed opening items closing) := by
  have hitems := h.trans (infix_separatedMarks hitem)
  rw [Within, marks_bracketed, List.append_assoc]
  exact hitems.trans ((List.prefix_append _ _).isInfix.trans (List.suffix_append _ _).isInfix)

/-- A text in one piece is in one piece on every page. -/
theorem Within.infix_render {s : String} (h : (ofText s).Within d) (width : Nat) :
    s.toList <:+: (d.render width).toList := by
  rw [Within, marks_ofText] at h
  exact Marks.infix_of_spells h (spells_render width d)

end Doc

namespace Code

/-! ## Expressions -/

namespace Expr

theorem within_operand {x : Expr} {d : Doc} (parens : Bool) (h : x.doc.Within d) :
    x.doc.Within (if parens then parenthesized d else d) := by
  cases parens with
  | false => exact h
  | true => exact (h.right _).left _

mutual

/-- **The parts of an expression are printed in one piece.** -/
theorem within_doc (e : Expr) : ∀ x ∈ e.parts, x.doc.Within e.doc := by
  have hself : e.doc.Within e.doc := .refl e.doc
  cases e with
  | ident | int | float | bool | str | null | new => exact List.forall_mem_singleton.2 hself
  | call callee args =>
    refine List.forall_mem_cons.2 ⟨hself, List.forall_mem_append.2 ⟨?_, ?_⟩⟩
    · exact fun x hx => (within_doc callee x hx).left _
    · intro x hx
      obtain ⟨d, hd, hwithin⟩ := within_docs args x hx
      exact (hwithin.bracketed hd "(" ")").right _
  | field base name | arrow base name =>
    refine List.forall_mem_cons.2 ⟨hself, fun x hx => ?_⟩
    exact ((within_doc base x hx).left _).left _
  | index base position =>
    refine List.forall_mem_cons.2 ⟨hself, List.forall_mem_append.2 ⟨?_, ?_⟩⟩
    · exact fun x hx => (((within_doc base x hx).left _).left _).left _
    · exact fun x hx => ((within_doc position x hx).right _).left _
  | addressOf operand | not operand | cast type operand =>
    exact List.forall_mem_cons.2 ⟨hself, fun x hx => (within_doc operand x hx).right _⟩
  | binary op left right =>
    refine List.forall_mem_cons.2 ⟨hself, List.forall_mem_append.2 ⟨?_, ?_⟩⟩
    · exact fun x hx => ((within_operand _ (within_doc left x hx)).left _).left _
    · exact fun x hx => (within_operand _ (within_doc right x hx)).right _
  | list items =>
    refine List.forall_mem_cons.2 ⟨hself, fun x hx => ?_⟩
    obtain ⟨d, hd, hwithin⟩ := within_docs items x hx
    exact hwithin.bracketed hd "\x7b" "\x7d"

theorem within_docs (items : List Expr) :
    ∀ x ∈ partsAll items, ∃ d ∈ docs items, x.doc.Within d := by
  cases items with
  | nil => exact fun _ hx => absurd hx List.not_mem_nil
  | cons e rest =>
    refine List.forall_mem_append.2 ⟨fun x hx => ?_, fun x hx => ?_⟩
    · exact ⟨e.doc, List.mem_cons_self, within_doc e x hx⟩
    · obtain ⟨d, hd, hwithin⟩ := within_docs rest x hx
      exact ⟨d, List.mem_cons_of_mem _ hd, hwithin⟩

end

end Expr

/-! ## Statements -/

namespace Stmt

/-- Some document among the chunks prints the whole of an expression in one piece. -/
def Carries (chunks : List Chunk) (x : Expr) : Prop :=
  ∃ level d, .doc level d ∈ chunks ∧ x.doc.Within d

theorem Carries.mono {chunks more : List Chunk} {x : Expr} (h : Carries chunks x)
    (hsub : chunks ⊆ more) : Carries more x := by
  obtain ⟨level, d, hd, hwithin⟩ := h
  exact ⟨level, d, hsub hd, hwithin⟩

/-- What is carried inside a block is carried by the block. -/
theorem Carries.block {first last : Chunk} {inner : List Chunk} {x : Expr}
    (h : Carries inner x) : Carries (first :: (inner ++ [last])) x :=
  h.mono fun _ hc => List.mem_cons_of_mem first (List.mem_append_left [last] hc)

mutual

/-- **A statement is printed with its expressions in one piece each.** -/
theorem carries_exprs (s : Stmt) (n : Nat) : ∀ x ∈ s.exprs, Carries (s.chunks n) x := by
  have hself (x : Expr) : x.doc.Within x.doc := .refl x.doc
  -- statements without a block are printed as one document
  have hone {d : Doc} {x : Expr} (h : x.doc.Within d) : Carries [.doc n d] x :=
    ⟨n, d, List.mem_singleton_self _, h⟩
  cases s with
  | decl type name init =>
    cases init with
    | none => exact fun _ hx => absurd hx List.not_mem_nil
    | some e => exact List.forall_mem_singleton.2 (hone (((hself e).right _).left _))
  | construct type name args =>
    intro x hx
    have hdoc : x.doc ∈ Expr.docs args := by
      rw [Expr.docs_eq_map]
      exact List.mem_map_of_mem hx
    exact hone ((((hself x).bracketed hdoc "(" ")").right _).left _)
  | assign target value | addAssign target value =>
    refine List.forall_mem_cons.2 ⟨?_, List.forall_mem_singleton.2 ?_⟩
    · exact hone ((((hself target).left _).left _).left _)
    · exact hone (((hself value).right _).left _)
  | expr e => exact List.forall_mem_singleton.2 (hone ((hself e).left _))
  | returnValue e | delete e =>
    exact List.forall_mem_singleton.2 (hone (((hself e).right _).left _))
  | ifThen e body | forRange _ e body =>
    refine List.forall_mem_cons.2 ⟨?_, fun x hx => (carries_exprsAll body (n + 1) x hx).block⟩
    exact ⟨n, _, List.mem_cons_self, (((hself e).right _).left _).left _⟩
  | scope body | function _ body => exact fun x hx => (carries_exprsAll body (n + 1) x hx).block
  | includeSystem | includeLocal | comment | blank | pragma | continueLoop | fragment | structType
  | prototype => exact fun _ hx => absurd hx List.not_mem_nil

theorem carries_exprsAll (stmts : List Stmt) (n : Nat) :
    ∀ x ∈ exprsAll stmts, Carries (chunksAll stmts n) x := by
  cases stmts with
  | nil => exact fun _ hx => absurd hx List.not_mem_nil
  | cons s rest =>
    refine List.forall_mem_append.2 ⟨fun x hx => ?_, fun x hx => ?_⟩
    · exact (carries_exprs s n x hx).mono (List.subset_append_left _ _)
    · exact (carries_exprsAll rest n x hx).mono (List.subset_append_right _ _)

end

end Stmt

/-! ## Printed code -/

section Margins

variable {margin s t : List Char}

theorem indented_append (margin : List Char) (atStart : Bool) (first rest : List Char) :
    ∃ start, indented margin atStart (first ++ rest) =
      indented margin atStart first ++ indented margin start rest := by
  induction first generalizing atStart with
  | nil => exact ⟨atStart, rfl⟩
  | cons c first ih =>
    by_cases hc : c = '\n'
    · obtain ⟨start, h⟩ := ih true
      refine ⟨start, ?_⟩
      rw [List.cons_append, indented, indented, if_pos hc, if_pos hc, h, List.cons_append]
    · obtain ⟨start, h⟩ := ih false
      refine ⟨start, ?_⟩
      rw [List.cons_append, indented, indented, if_neg hc, if_neg hc, h]
      split
      · rw [List.append_assoc, List.cons_append]
      · rw [List.cons_append]

/-- **A margin comes before a line and not into it.** -/
theorem infix_indented (hline : '\n' ∉ s) (h : s <:+: t) (atStart : Bool) :
    s <:+: indented margin atStart t := by
  obtain ⟨before, after, rfl⟩ := h
  cases s with
  | nil => exact List.nil_infix
  | cons c s =>
    obtain ⟨hc, hs⟩ := not_or.1 (mt List.mem_cons.2 hline)
    obtain ⟨start, happend⟩ := indented_append margin atStart before (c :: s ++ after)
    rw [List.append_assoc, happend, List.cons_append, indented, if_neg (Ne.symm hc),
      indented_false_append hs]
    -- the first character may open a line, the others follow it
    refine ⟨indented margin atStart before ++ (if start then margin else []),
      indented margin false after, ?_⟩
    cases start <;> simp

end Margins

theorem render_eq_chunks (stmts : List Stmt) :
    render stmts = printChunks "  " (Stmt.chunksAll stmts 0) := by
  rw [render, Stmt.printAll_eq stmts {} rfl, Writer.append]
  exact String.empty_append

theorem infix_printChunks {unit : String} {chunks : List Chunk} {c : Chunk} (h : c ∈ chunks) :
    (c.print unit).toList <:+: (printChunks unit chunks).toList := by
  obtain ⟨before, after, rfl⟩ := List.append_of_mem h
  exact ⟨(printChunks unit before).toList, (printChunks unit after).toList, by simp⟩

theorem mem_expressions {stmts : List Stmt} {x : Expr} :
    x ∈ expressions stmts ↔ ∃ st ∈ stmts, ∃ e ∈ st.exprs, x ∈ e.parts := by
  simp only [expressions, Expr.partsAll_eq, Stmt.exprsAll_eq, List.mem_flatMap]
  constructor
  · rintro ⟨e, ⟨st, hst, he⟩, hx⟩
    exact ⟨st, hst, e, he, hx⟩
  · rintro ⟨st, hst, e, he, hx⟩
    exact ⟨e, ⟨st, hst, he⟩, hx⟩

namespace Literal

/-- The text stands in a source as a literal, which is read to its end and no further. -/
def StandsIn (text source : String) : Prop :=
  ∃ before after, source.toList = before ++ ((quote text).toList ++ after) ∧
    read ((quote text).toList ++ after) = some (text, after)

variable {stmts : List Stmt} {text : String}

theorem infix_render_quote (h : .str text ∈ expressions stmts) :
    (quote text).toList <:+: (render stmts).toList := by
  rw [expressions, Expr.partsAll_eq, List.mem_flatMap] at h
  obtain ⟨e, he, hpart⟩ := h
  obtain ⟨level, d, hchunk, hwithin⟩ := Stmt.carries_exprsAll stmts 0 e he
  have hquote : (Doc.ofText (quote text)).Within d := (Expr.within_doc e _ hpart).trans hwithin
  have hline : '\n' ∉ (quote text).toList := by
    intro hmem
    exact absurd (printable_of_mem_quote hmem).1 (by decide)
  -- first the lines of the document are settled, then they get their margins
  have hcontent : (quote text).toList <:+: (Chunk.doc level d).content "  " ++ ['\n'] :=
    (hquote.infix_render _).trans (List.prefix_append _ _).isInfix
  have hprint : (quote text).toList <:+: ((Chunk.doc level d).print "  ").toList := by
    rw [Chunk.print, String.toList_ofList]
    exact infix_indented hline hcontent true
  rw [render_eq_chunks]
  exact hprint.trans (infix_printChunks hchunk)

/-- **Every literal of a program stands in its text.** -/
theorem standsIn_render (h : .str text ∈ expressions stmts) : StandsIn text (render stmts) := by
  obtain ⟨before, after, hsource⟩ := infix_render_quote h
  rw [List.append_assoc] at hsource
  exact ⟨before, after, hsource.symm, read_quote text after⟩

end Literal

end Code

end SparseTiling
