import SparseTiling.Proofs.Code.Chunks
import SparseTiling.Proofs.Code.Scope

/-!
# Code as a greedy fill

Argument lists, braced lists and heads of functions are broken after commas, and only where
the next item does not fit on the line: their text is the greedy fill of their texts and
commas.

* `Expr.stretches`, `Signature.stretches`: texts and possible breaks.
* `Expr.Itemized`: no item of a list is the empty identifier, which would leave a break
  without the item that indents it.
* `Expr.shows_doc`, `Signature.shows_doc`: they are those of the documents.
* `Chunk.print_doc`: a printed document, line by line.
* `prints_greedy_fill`: texts at every width are greedy fills, and printed lines keep to the
  page.
-/

namespace SparseTiling.Code

open Layout

/-! ## Expressions -/

theorem writeDecimal_ne_nil (style : Binary64.Style) (d : Binary64.Decimal) :
    style.writeDecimal d ≠ [] := by
  unfold Binary64.Style.writeDecimal Binary64.placePoint
  dsimp only
  split
  · split <;> simp
  · simp

theorem write_ne_empty (style : Binary64.Style) (x : Binary64) : style.write x ≠ "" := by
  have hdecimal := writeDecimal_ne_nil style (x.shortest style.tie)
  unfold Binary64.Style.write
  dsimp only
  split
  · decide
  · split
    · simp
    · split
      · simp
      · simp [hdecimal]

namespace Expr

/-- The items of an argument list or a braced list. -/
@[simp] def items? : Expr → Option (List Expr)
  | .call _ args => some args
  | .list items => some items
  | _ => none

/-- No item of a list in the expression is the empty identifier. -/
def Itemized (e : Expr) : Prop := ∀ items ∈ e.collect items?, .ident "" ∉ items

mutual

/-- The texts and possible breaks of an expression; lines that are broken outside its own lists
are indented by `i`. -/
def stretches : Expr → Nat → List Stretch
  | .ident name, _ => Stretch.ofText name
  | .int value, _ => Stretch.ofText (toString value)
  | .float value, _ => Stretch.ofText (doubleStyle.write value)
  | .bool value, _ => Stretch.ofText (if value then "true" else "false")
  | .str text, _ => Stretch.ofText (quote text)
  | .null, _ => Stretch.ofText "NULL"
  | .call callee args, i =>
    callee.stretches i ++ enclosed "(" (i + 4) (stretchesEach args (i + 4)) ")"
  | .field base name, i => base.stretches i ++ Stretch.ofText "." ++ Stretch.ofText name
  | .arrow base name, i => base.stretches i ++ Stretch.ofText "->" ++ Stretch.ofText name
  | .index base position, i =>
    base.stretches i ++ Stretch.ofText "[" ++ position.stretches i ++ Stretch.ofText "]"
  | .addressOf operand, i => Stretch.ofText "&" ++ operand.stretches i
  | .not operand, i => Stretch.ofText "!" ++ operand.stretches i
  | .cast type operand, i => Stretch.ofText ("(" ++ type ++ ")") ++ operand.stretches i
  | .binary op left right, i =>
    (if needsParens op false left then
        Stretch.ofText "(" ++ left.stretches i ++ Stretch.ofText ")"
      else left.stretches i) ++
      Stretch.ofText (" " ++ op.symbol ++ " ") ++
      (if needsParens op true right then
        Stretch.ofText "(" ++ right.stretches i ++ Stretch.ofText ")"
      else right.stretches i)
  | .new type, _ => Stretch.ofText ("new " ++ type ++ "()")
  | .list items, i => enclosed "\x7b" (i + 4) (stretchesEach items (i + 4)) "\x7d"

/-- The texts and possible breaks of several expressions, each on its own. -/
def stretchesEach : List Expr → Nat → List (List Stretch)
  | [], _ => []
  | e :: rest, i => e.stretches i :: stretchesEach rest i

end

theorem stretchesEach_eq (items : List Expr) (i : Nat) :
    stretchesEach items i = items.map fun e => e.stretches i := by
  induction items with
  | nil => rfl
  | cons e rest ih => rw [stretchesEach, ih, List.map_cons]

theorem soft_operand (parens : Bool) {d : Doc} (h : d.Soft) :
    (if parens then parenthesized d else d).Soft := by
  cases parens with
  | false => exact h
  | true => exact ((Doc.soft_ofText "(").cat h).cat (Doc.soft_ofText ")")

theorem shows_operand (parens : Bool) {d : Doc} {ts : Nat → List Stretch} (h : d.Shows ts) :
    (if parens then parenthesized d else d).Shows fun i =>
      if parens then Stretch.ofText "(" ++ ts i ++ Stretch.ofText ")" else ts i := by
  cases parens with
  | false => exact h
  | true => exact ((Doc.shows_ofText "(").cat h).cat (Doc.shows_ofText ")")

/-- Only the empty identifier has no text. -/
theorem doc_ne_nil {e : Expr} (h : e ≠ .ident "") : e.doc ≠ .nil := by
  intro hnil
  have hflat : e.flat = [] := by rw [← flat_doc, hnil]; rfl
  cases e with
  | ident name =>
    have hname : name = "" := by simpa [flat] using hflat
    exact h (congrArg ident hname)
  | int value =>
    have hdigits : (toString value).toList = [] := hflat
    cases value with
    | ofNat n =>
      rw [Binary64.toList_toString_ofNat] at hdigits
      exact absurd hdigits (by simp)
    | negSucc n =>
      rw [Binary64.toList_toString_negSucc] at hdigits
      exact absurd hdigits (by simp)
  | float value =>
    have hempty : doubleStyle.write value = "" := by simpa [flat] using hflat
    exact write_ne_empty doubleStyle value hempty
  | bool value => cases value <;> simp [flat] at hflat
  | str text => simp [flat, quote, quoteChars] at hflat
  | null | call | field | arrow | index | addressOf | not | cast | binary | new | list =>
    simp [flat] at hflat

mutual

/-- All possible breaks in an expression are decided on their own. -/
theorem soft_doc (e : Expr) : e.doc.Soft := by
  have htext := Doc.soft_ofText
  cases e with
  | ident | int | float | bool | str | null | new => exact htext _
  | call callee args => exact (soft_doc callee).cat (Doc.soft_bracketed "(" ")" (soft_docs args))
  | field base name => exact ((soft_doc base).cat (htext ".")).cat (htext name)
  | arrow base name => exact ((soft_doc base).cat (htext "->")).cat (htext name)
  | index base position =>
    exact (((soft_doc base).cat (htext "[")).cat (soft_doc position)).cat (htext "]")
  | addressOf operand => exact (htext "&").cat (soft_doc operand)
  | not operand => exact (htext "!").cat (soft_doc operand)
  | cast type operand => exact (htext _).cat (soft_doc operand)
  | binary op left right =>
    exact ((soft_operand _ (soft_doc left)).cat (htext _)).cat (soft_operand _ (soft_doc right))
  | list items => exact Doc.soft_bracketed "\x7b" "\x7d" (soft_docs items)

theorem soft_docs (items : List Expr) : ∀ d ∈ docs items, d.Soft := by
  cases items with
  | nil => exact fun _ hd => absurd hd List.not_mem_nil
  | cons e rest => exact List.forall_mem_cons.2 ⟨soft_doc e, soft_docs rest⟩

end

theorem Itemized.of_subset {x e : Expr} (h : e.Itemized)
    (hsub : x.collect items? ⊆ e.collect items?) : x.Itemized :=
  fun items hitems => h items (hsub hitems)

/-- The items of a list have a text, and so have those of the lists inside them. -/
theorem Itemized.item {e a : Expr} {items : List Expr} (h : e.Itemized)
    (he : e.items? = some items) (ha : a ∈ items) : a.Itemized ∧ a.doc ≠ .nil := by
  have hlist : items ∈ e.collect items? ∧
      items.flatMap (collect items?) ⊆ e.collect items? := by
    cases e with
    | call callee args =>
      obtain rfl := Option.some.inj he
      simp
    | list items =>
      obtain rfl := Option.some.inj he
      simp
    | _ => cases he
  refine ⟨h.of_subset fun inner hinner => ?_, doc_ne_nil fun hempty => ?_⟩
  · exact hlist.2 (List.mem_flatMap.2 ⟨a, ha, hinner⟩)
  · subst hempty
    exact h items hlist.1 ha

mutual

/-- **The texts and breaks of an expression are those of its document.** -/
theorem shows_doc (e : Expr) (h : e.Itemized) : e.doc.Shows e.stretches := by
  have htext := Doc.shows_ofText
  cases e with
  | ident | int | float | bool | str | null | new => exact htext _
  | call callee args =>
    have hne : ∀ a ∈ args, a.doc ≠ .nil := fun a ha => (h.item rfl ha).2
    have hargs := shows_docs args fun a ha => (h.item rfl ha).1
    have hts : (call callee args).stretches = fun i =>
        callee.stretches i ++ enclosed "(" (i + 4) (args.map fun a => a.stretches (i + 4)) ")" := by
      funext i
      rw [stretches, stretchesEach_eq]
    rw [doc, docs_eq_map, hts]
    exact (shows_doc callee (h.of_subset (by simp))).cat
      (Doc.shows_bracketed "(" ")" hne hargs)
  | field base name =>
    exact ((shows_doc base (h.of_subset (by simp))).cat (htext ".")).cat (htext name)
  | arrow base name =>
    exact ((shows_doc base (h.of_subset (by simp))).cat (htext "->")).cat (htext name)
  | index base position =>
    exact (((shows_doc base (h.of_subset (by simp))).cat (htext "[")).cat
      (shows_doc position (h.of_subset (by simp)))).cat (htext "]")
  | addressOf operand => exact (htext "&").cat (shows_doc operand (h.of_subset (by simp)))
  | not operand => exact (htext "!").cat (shows_doc operand (h.of_subset (by simp)))
  | cast type operand => exact (htext _).cat (shows_doc operand (h.of_subset (by simp)))
  | binary op left right =>
    exact ((shows_operand _ (shows_doc left (h.of_subset (by simp)))).cat (htext _)).cat
      (shows_operand _ (shows_doc right (h.of_subset (by simp))))
  | list items =>
    have hne : ∀ a ∈ items, a.doc ≠ .nil := fun a ha => (h.item rfl ha).2
    have hitems := shows_docs items fun a ha => (h.item rfl ha).1
    have hts : (list items).stretches = fun i =>
        enclosed "\x7b" (i + 4) (items.map fun a => a.stretches (i + 4)) "\x7d" := by
      funext i
      rw [stretches, stretchesEach_eq]
    rw [doc, docs_eq_map, hts]
    exact Doc.shows_bracketed "\x7b" "\x7d" hne hitems

theorem shows_docs (items : List Expr) (h : ∀ e ∈ items, e.Itemized) :
    ∀ e ∈ items, e.doc.Shows e.stretches := by
  cases items with
  | nil => exact fun _ he => absurd he List.not_mem_nil
  | cons e rest =>
    rw [List.forall_mem_cons] at h
    exact List.forall_mem_cons.2 ⟨shows_doc e h.1, shows_docs rest h.2⟩

end

end Expr

/-! ## Heads of functions -/

/-- The texts and possible breaks of the head of a function. -/
def Signature.stretches (s : Signature) : List Stretch :=
  Stretch.ofText ((if s.exported then "extern \"C\" " else "") ++ s.result ++ " " ++ s.name) ++
    enclosed "(" 4 (s.params.map fun p => Stretch.ofText p.text) ")"

theorem Param.text_ne_empty (p : Param) : p.text ≠ "" := by
  unfold Param.text
  split <;> simp

section Heads

variable (s : Signature)

theorem Signature.soft_doc : s.doc.Soft := by
  have htext := Doc.soft_ofText
  have hparams : ∀ d ∈ s.params.map (fun p => Doc.ofText p.text), d.Soft := by
    intro d hd
    obtain ⟨p, -, rfl⟩ := List.mem_map.1 hd
    exact htext p.text
  exact ((((htext _).cat (htext "(")).cat
    ((Doc.soft_commaSeparated hparams).indent Doc.continuation)).cat (htext ")")).grouped

/-- The indentation of the head itself is nought. -/
theorem Signature.shows_doc : ∃ ts, s.doc.Shows ts ∧ ts 0 = s.stretches := by
  have htext := Doc.shows_ofText
  have hne : ∀ p ∈ s.params, Doc.ofText p.text ≠ .nil := by
    intro p _
    rw [Doc.ofText, if_neg p.text_ne_empty]
    exact Doc.noConfusion
  have hparams := (Doc.shows_commaSeparated hne fun p _ => htext p.text).indent Doc.continuation
  refine ⟨_, ((((htext _).cat (htext "(")).cat hparams).cat (htext ")")).grouped, ?_⟩
  simp only [Signature.stretches, enclosed, List.append_assoc]
  rfl

end Heads

/-! ## Printed documents -/

/-- Every document among the chunks is soft. -/
def Chunk.Soft : Chunk → Prop
  | .text _ _ => True
  | .doc _ d => d.Soft

namespace Stmt

theorem soft_block {first : Chunk} {inner : List Chunk} {level : Nat} (hfirst : first.Soft)
    (hinner : ∀ c ∈ inner, c.Soft) : ∀ c ∈ first :: (inner ++ [.closing level]), c.Soft := by
  simp only [List.forall_mem_cons, List.forall_mem_append]
  exact ⟨hfirst, hinner, trivial, by simp⟩

mutual

theorem soft_chunks (s : Stmt) (n : Nat) : ∀ c ∈ s.chunks n, c.Soft := by
  have htext := Doc.soft_ofText
  have hone : ∀ {c : Chunk}, c.Soft → ∀ x ∈ [c], x.Soft := by simp
  cases s with
  | includeSystem | includeLocal | comment | blank | pragma | continueLoop => exact hone trivial
  | decl type name init =>
    cases init with
    | none => exact hone ((htext _).cat (htext ";"))
    | some e => exact hone ((((htext _).cat (htext " = ")).cat e.soft_doc).cat (htext ";"))
  | construct type name args =>
    exact hone (((htext _).cat (Doc.soft_bracketed "(" ")" (Expr.soft_docs args))).cat (htext ";"))
  | assign target value =>
    exact hone (((target.soft_doc.cat (htext " = ")).cat value.soft_doc).cat (htext ";"))
  | addAssign target value =>
    exact hone (((target.soft_doc.cat (htext " += ")).cat value.soft_doc).cat (htext ";"))
  | expr e => exact hone (e.soft_doc.cat (htext ";"))
  | returnValue e => exact hone (((htext "return ").cat e.soft_doc).cat (htext ";"))
  | delete e => exact hone (((htext "delete ").cat e.soft_doc).cat (htext ";"))
  | prototype head => exact hone (head.soft_doc.cat (htext ";"))
  | ifThen cond body =>
    exact soft_block ((((htext "if (").cat cond.soft_doc).cat (htext ")")).cat (htext " \x7b"))
      (soft_chunksAll body (n + 1))
  | forRange var bound body =>
    exact soft_block ((((htext _).cat bound.soft_doc).cat (htext _)).cat (htext " \x7b"))
      (soft_chunksAll body (n + 1))
  | function head body =>
    exact soft_block (head.soft_doc.cat (htext " \x7b")) (soft_chunksAll body (n + 1))
  | scope body => exact soft_block trivial (soft_chunksAll body (n + 1))
  | fragment text =>
    intro c hc
    obtain ⟨line, -, rfl⟩ := List.mem_map.1 hc
    trivial
  | structType name fields =>
    intro c hc
    simp only [chunks, List.mem_cons, List.mem_append, List.mem_map, List.not_mem_nil,
      or_false] at hc
    rcases hc with rfl | ⟨f, -, rfl⟩ | rfl <;> trivial

theorem soft_chunksAll (stmts : List Stmt) (n : Nat) : ∀ c ∈ chunksAll stmts n, c.Soft := by
  cases stmts with
  | nil => exact fun _ hc => absurd hc List.not_mem_nil
  | cons s rest =>
    rw [chunksAll, List.forall_mem_append]
    exact ⟨soft_chunks s n, soft_chunksAll rest n⟩

end

end Stmt

/-- Lines as they are printed: each that is not empty with its margin, and its end. -/
def printLines (margin : List Char) (lines : List Line) : String :=
  String.ofList
    (lines.flatMap fun l => (if l.chars = [] then [] else margin ++ l.chars) ++ ['\n'])

/-- Text in ASCII without line breaks. -/
def Typeable (text : List Char) : Prop := ∀ c ∈ text, c.toNat < 0x80 ∧ c ≠ '\n'

section Documents

variable {unit : String} {level width : Nat} {d : Doc} {l : Line}

theorem typeable_lines (hd : d.Soft) (htext : Typeable d.flat)
    (hl : l ∈ lines (d.layout width)) : Typeable l.chars := by
  intro c hc
  rcases mem_flat_of_mem_lines hd hl hc with rfl | hflat
  · decide
  · exact htext c hflat

/-- A printed document consists of the lines of its layout. -/
theorem Chunk.print_doc (hd : d.Soft) (htext : Typeable d.flat) :
    (Chunk.doc level d).print unit =
      printLines (Writer.marginAt unit level) (lines (d.layout (room unit level))) := by
  have hlines : (lines (d.layout (room unit level))).flatMap (fun l => l.chars ++ ['\n']) =
      chars (d.layout (room unit level)) ++ ['\n'] := by
    rw [lines, chars_linesFrom]
    rfl
  have hfree : ∀ cs ∈ (lines (d.layout (room unit level))).map Line.chars, '\n' ∉ cs := by
    intro cs hcs hbreak
    obtain ⟨l, hl, rfl⟩ := List.mem_map.1 hcs
    exact (typeable_lines hd htext hl '\n' hbreak).2 rfl
  have hmargin := indented_lines (Writer.marginAt unit level) hfree
  rw [List.flatMap_map, hlines, List.flatMap_map] at hmargin
  rw [Chunk.print, Chunk.content, Doc.toList_render, printLines]
  exact congrArg String.ofList hmargin

theorem length_le_utf8ByteSize (s : String) : s.length ≤ s.utf8ByteSize := by
  have hchars : ∀ cs : List Char, cs.length ≤ (String.ofList cs).utf8ByteSize := by
    intro cs
    induction cs with
    | nil => simp
    | cons c cs ih =>
      have hpos := c.utf8Size_pos
      rw [String.ofList_cons, String.utf8ByteSize_append, String.utf8ByteSize_singleton,
        List.length_cons]
      omega
  have hs := hchars s.toList
  rwa [String.ofList_toList, String.length_toList] at hs

theorem length_marginAt_le (unit : String) (level : Nat) :
    (Writer.marginAt unit level).length ≤ level * unit.utf8ByteSize := by
  have hlength : (Writer.marginAt unit level).length = level * unit.length := by
    simp [Writer.marginAt, List.length_flatMap, ← String.length_toList]
  rw [hlength]
  exact Nat.mul_le_mul_left level (length_le_utf8ByteSize unit)

/-- A line with a space at a possible break keeps to the page, with its margin. -/
theorem Chunk.line_le_page (hd : d.Soft) (htext : Typeable d.flat)
    (hlevel : level * unit.utf8ByteSize ≤ 60) (hl : l ∈ lines (d.layout (room unit level)))
    (hspace : none ∈ l.items) : (Writer.marginAt unit level ++ l.chars).length ≤ 100 := by
  have hroom : room unit level = 100 - level * unit.utf8ByteSize := by
    simp only [room, pageWidth, leastWidth]
    omega
  have hwidth : l.width ≤ room unit level := width_le_of_mem_lines hd hl hspace
  rw [Line.width_ascii fun c hc => (typeable_lines hd htext hl c hc).1] at hwidth
  have hmargin := length_marginAt_le unit level
  rw [List.length_append]
  omega

end Documents

/-- **Lists are filled greedily.** At every width, the text of an expression none of whose
list items is the empty identifier, and that of the head of a function, is the greedy fill of
its texts and the breaks after its commas, four columns deeper for each list around them.

So in whatever is printed, a line of a document in ASCII that has a space at one of these
breaks takes no more than 100 columns, its margin of up to 60 included. -/
theorem prints_greedy_fill :
    (∀ (e : Expr) (width : Nat), e.Itemized →
      e.renderAt width = fillText width (e.stretches 0) ∧
        flatText (e.stretches 0) = String.ofList e.flat) ∧
    (∀ (s : Signature) (width : Nat),
      s.doc.render width = fillText width s.stretches ∧
        flatText s.stretches = String.ofList s.doc.flat) ∧
    ∀ (stmts : List Stmt) (w : Writer), w.atLineStart = true →
      Stmt.printAll stmts w =
          w.append (printChunks w.unit (Stmt.chunksAll stmts w.level)) ∧
        ∀ (level : Nat) (d : Doc), .doc level d ∈ Stmt.chunksAll stmts w.level →
          level * w.unit.utf8ByteSize ≤ 60 → Typeable d.flat →
          (Chunk.doc level d).print w.unit = printLines (Writer.marginAt w.unit level)
              (lines (d.layout (Chunk.room w.unit level))) ∧
            ∀ l ∈ lines (d.layout (Chunk.room w.unit level)), '\n' ∉ l.chars ∧
              (none ∈ l.items → (Writer.marginAt w.unit level ++ l.chars).length ≤ 100) := by
  refine ⟨?_, ?_, ?_⟩
  · intro e width hitems
    have hshows := e.shows_doc hitems
    rw [Expr.renderAt, Doc.render_eq_fill e.soft_doc hshows, Doc.flatText_eq hshows, e.flat_doc]
    exact ⟨rfl, rfl⟩
  · intro s width
    obtain ⟨ts, hshows, hts⟩ := s.shows_doc
    rw [← hts, Doc.render_eq_fill s.soft_doc hshows, Doc.flatText_eq hshows]
    exact ⟨rfl, rfl⟩
  · intro stmts w hstart
    refine ⟨Stmt.printAll_eq stmts w hstart, ?_⟩
    intro level d hchunk hlevel htext
    have hsoft : d.Soft := Stmt.soft_chunksAll stmts w.level _ hchunk
    refine ⟨Chunk.print_doc hsoft htext, fun l hl => ⟨?_, ?_⟩⟩
    · exact fun hbreak => (typeable_lines hsoft htext hl '\n' hbreak).2 rfl
    · exact Chunk.line_le_page hsoft htext hlevel hl

/-- A call with a call among its arguments. -/
def nestedCall : Expr :=
  .callName "f" [.ident "aaaa", .callName "g" [.ident "b", .ident "cc"], .ident "dddd"]

theorem prints_greedy_fill_nestedCall :
    nestedCall.renderAt 12 = "f(aaaa, g(b,\n        cc),\n    dddd)" ∧
      ∀ l ∈ lines ((nestedCall.doc ++ Doc.ofText ";").layout 94), none ∈ l.items →
        ("      ".toList ++ l.chars).length ≤ 100 := by
  obtain ⟨hexpr, -, hprint⟩ := prints_greedy_fill
  have hitems : nestedCall.Itemized := by
    simp [Expr.Itemized, nestedCall, Expr.callName]
  have hflat : (nestedCall.doc ++ Doc.ofText ";").flat = "f(aaaa, g(b, cc), dddd);".toList := by
    rw [Doc.flat_cat, Expr.flat_doc, Doc.flat_ofText]
    rfl
  have htext : Typeable (nestedCall.doc ++ Doc.ofText ";").flat := by
    rw [hflat]
    simp [Typeable]
  refine ⟨?_, ?_⟩
  · rw [(hexpr nestedCall 12 hitems).1]
    cbv
  · -- three levels deep, six columns are taken by the margin
    obtain ⟨-, hdocs⟩ := hprint [.expr nestedCall] { level := 3 } rfl
    have hlines := (hdocs 3 _ List.mem_cons_self (by decide) htext).2
    exact fun l hl => (hlines l hl).2

end SparseTiling.Code
