import SparseTiling.Code.Print
import SparseTiling.Proofs.Code.Literal
import SparseTiling.Proofs.Decimal.Digits
import SparseTiling.Proofs.Layout.Unbroken

/-!
# Plain expressions

The expressions that emitted code is made of: names, literals, calls and accesses on
**suffixed** expressions (which start with a name), braced lists, and operations of any
depth. What counts as a letter in a name is left open, beyond ASCII.

* `Alphabet`, `Alphabet.IsIdent`: letters and identifiers.
* `Plain`: the class of expressions.
* `Expr.flat`, `Expr.flat_doc`: the text of an expression on one line, and that it is what
  its document prints.
* `Plain.tidy`: a plain expression can be broken only in front of a visible character,
  so its text on one line is the same at all widths.
-/

namespace SparseTiling.Code

/-! ## Identifiers -/

/-- What counts as a letter: the ASCII letters, and perhaps characters beyond ASCII. -/
structure Alphabet where
  letter : Char → Bool
  ascii : ∀ c, c.isAlpha = true → letter c = true
  beyond : ∀ c, letter c = true → c.isAlpha = true ∨ 0x80 ≤ c.toNat

namespace Alphabet

/-- The letters of ASCII alone. -/
def latin : Alphabet where
  letter := Char.isAlpha
  ascii _ h := h
  beyond _ h := .inl h

variable (A : Alphabet)

/-- Letters, digits and underscores. -/
def inWord (c : Char) : Bool := A.letter c || c.isDigit || c == '_'

/-- The characters of identifiers. -/
def inName (c : Char) : Bool := A.inWord c || c == ':'

/-- Words of letters, digits, underscores and double colons. -/
def spells : List Char → Bool
  | [] => true
  | ':' :: ':' :: s => spells s
  | c :: s => A.inWord c && spells s

/-- The words that are no identifiers. -/
def reserved : List String := ["NULL", "true", "false", "new"]

/-- An identifier, possibly qualified. -/
structure IsIdent (name : String) : Prop where
  spelled : A.spells name.toList = true
  nonempty : name ≠ ""
  noDigit : name.toList.head?.any Char.isDigit = false
  free : name ∉ reserved

/-- The name of a field or a method. -/
def IsMember (name : String) : Prop := A.IsIdent name ∧ ':' ∉ name.toList

/-- The name of a type, followed by stars. -/
def IsType (type : String) : Prop :=
  ∃ base stars, A.IsIdent base ∧ type = base ++ String.ofList (List.replicate stars '*')

instance (name : String) : Decidable (A.IsIdent name) :=
  decidable_of_iff
    (A.spells name.toList = true ∧ name ≠ "" ∧ name.toList.head?.any Char.isDigit = false ∧
      name ∉ reserved)
    ⟨fun ⟨h₁, h₂, h₃, h₄⟩ => ⟨h₁, h₂, h₃, h₄⟩, fun ⟨h₁, h₂, h₃, h₄⟩ => ⟨h₁, h₂, h₃, h₄⟩⟩

instance (name : String) : Decidable (A.IsMember name) :=
  inferInstanceAs (Decidable (_ ∧ _))

variable {A} {c : Char} {name : String}

/-- An ASCII character that is no letter is none in any alphabet. -/
theorem letter_eq_false (halpha : c.isAlpha = false) (hascii : c.toNat < 0x80) :
    A.letter c = false := by
  by_contra h
  rcases A.beyond c (by simpa using h) with h | h
  · simp [halpha] at h
  · omega

theorem inName_eq_false (halpha : c.isAlpha = false) (hascii : c.toNat < 0x80)
    (hother : (c.isDigit || c == '_' || c == ':') = false) : A.inName c = false := by
  simpa [inName, inWord, letter_eq_false halpha hascii, Bool.or_assoc] using hother

theorem inWord_colon : A.inWord ':' = false := by
  have hletter : A.letter ':' = false := letter_eq_false rfl (by decide)
  simp [inWord, hletter]

theorem inName_of_isDigit (h : c.isDigit = true) : A.inName c = true := by
  simp [inName, inWord, h]

theorem inName_of_spells {s : List Char} (h : A.spells s = true) :
    ∀ c ∈ s, A.inName c = true := by
  fun_induction spells A s with
  | case1 => simp
  | case2 s ih => simpa [inName] using ih h
  | case3 c s _ ih =>
    rw [Bool.and_eq_true] at h
    intro d hd
    rcases List.mem_cons.1 hd with rfl | hd
    · simp [inName, h.1]
    · exact ih h.2 d hd

theorem IsIdent.inName (h : A.IsIdent name) : ∀ c ∈ name.toList, A.inName c = true :=
  inName_of_spells h.spelled

theorem IsIdent.exists_cons (h : A.IsIdent name) :
    ∃ c s, name.toList = c :: s ∧ A.inName c = true ∧ c.isDigit = false := by
  have hne : name.toList ≠ [] := by simpa using h.nonempty
  obtain ⟨c, s, hs⟩ := List.exists_cons_of_ne_nil hne
  refine ⟨c, s, hs, h.inName c (by simp [hs]), ?_⟩
  simpa [hs] using h.noDigit

theorem inWord_of_latin (h : latin.inWord c = true) : A.inWord c = true := by
  simp only [inWord, Bool.or_eq_true] at h ⊢
  exact h.imp_left fun h => h.imp_left (A.ascii c)

theorem spells_cons {s : List Char} (hc : A.inWord c = true) (hs : A.spells s = true) :
    A.spells (c :: s) = true := by
  have hcolon : c ≠ ':' := by rintro rfl; simp [inWord_colon] at hc
  rw [spells, hc, hs]
  · rfl
  · exact fun _ h => absurd h hcolon

/-- What is spelled in ASCII letters is spelled in every alphabet. -/
theorem spells_of_latin {s : List Char} (h : latin.spells s = true) : A.spells s = true := by
  fun_induction spells latin s with
  | case1 => rfl
  | case2 s ih => exact ih h
  | case3 c s _ ih =>
    rw [Bool.and_eq_true] at h
    exact spells_cons (inWord_of_latin h.1) (ih h.2)

theorem isIdent_of_latin (h : latin.IsIdent name) : A.IsIdent name :=
  ⟨spells_of_latin h.spelled, h.nonempty, h.noDigit, h.free⟩

theorem isMember_of_latin (h : latin.IsMember name) : A.IsMember name :=
  ⟨isIdent_of_latin h.1, h.2⟩

theorem spells_append {s t : List Char} (hs : A.spells s = true) (ht : A.spells t = true) :
    A.spells (s ++ t) = true := by
  fun_induction spells A s with
  | case1 => exact ht
  | case2 s ih => exact ih hs
  | case3 c s _ ih =>
    rw [Bool.and_eq_true] at hs
    exact spells_cons hs.1 (ih hs.2)

theorem spells_of_inWord {s : List Char} (h : ∀ c ∈ s, A.inWord c = true) :
    A.spells s = true := by
  induction s with
  | nil => rfl
  | cons c s ih =>
    rw [List.forall_mem_cons] at h
    exact spells_cons h.1 (ih h.2)

theorem spells_toString (n : Nat) : A.spells (toString n).toList = true := by
  rw [Binary64.toList_toString_nat]
  exact spells_of_inWord fun c hc => by simp [inWord, Binary64.isDigit_toDigits hc]

/-- An identifier that goes on, with an underscore somewhere, is an identifier. -/
theorem IsIdent.append {more : String} (h : A.IsIdent name) (hmore : A.spells more.toList = true)
    (hmark : '_' ∈ (name ++ more).toList) : A.IsIdent (name ++ more) where
  spelled := by
    rw [String.toList_append]
    exact spells_append h.spelled hmore
  nonempty := by
    obtain ⟨c, s, hs, -⟩ := h.exists_cons
    simp [← String.toList_inj, hs]
  noDigit := by
    obtain ⟨c, s, hs, -, hdigit⟩ := h.exists_cons
    simp [hs, hdigit]
  free hfree := by
    -- no reserved word has an underscore
    have hplain : ∀ w ∈ reserved, '_' ∉ w.toList := by decide
    exact hplain _ hfree hmark

end Alphabet

/-! ## Expressions -/

/-- Suffixed expressions start with a name and go on with calls and accesses. -/
inductive Level
  | suffixed
  | full
  deriving DecidableEq

/-- **The expressions that emitted code is made of.** -/
inductive Plain (A : Alphabet) : Level → Expr → Prop
  | ident {name : String} : A.IsIdent name → Plain A .suffixed (.ident name)
  | call {callee : Expr} {args : List Expr} :
      Plain A .suffixed callee → (∀ a ∈ args, Plain A .full a) →
      Plain A .suffixed (.call callee args)
  | field {base : Expr} {name : String} :
      Plain A .suffixed base → A.IsMember name → Plain A .suffixed (.field base name)
  | arrow {base : Expr} {name : String} :
      Plain A .suffixed base → A.IsMember name → Plain A .suffixed (.arrow base name)
  | index {base position : Expr} :
      Plain A .suffixed base → Plain A .full position → Plain A .suffixed (.index base position)
  | suffixed {e : Expr} : Plain A .suffixed e → Plain A .full e
  | int (value : Int) : Plain A .full (.int value)
  | bool (value : Bool) : Plain A .full (.bool value)
  | str (text : String) : Plain A .full (.str text)
  | null : Plain A .full .null
  | new {type : String} : A.IsIdent type → Plain A .full (.new type)
  | list {items : List Expr} : (∀ a ∈ items, Plain A .full a) → Plain A .full (.list items)
  | addressOf {operand : Expr} : Plain A .suffixed operand → Plain A .full (.addressOf operand)
  | not {operand : Expr} : Plain A .suffixed operand → Plain A .full (.not operand)
  | cast {type : String} {operand : Expr} :
      A.IsType type → Plain A .suffixed operand → Plain A .full (.cast type operand)
  | binary (op : BinaryOp) {left right : Expr} :
      Plain A .full left → Plain A .full right → Plain A .full (.binary op left right)

section Shapes

variable {A : Alphabet} {level : Level} {e base position callee operand left right : Expr}
variable {items : List Expr} {name type : String} {op : BinaryOp}

theorem Plain.lift (h : Plain A .suffixed e) : Plain A level e := by
  cases level with
  | suffixed => exact h
  | full => exact .suffixed h

@[simp] theorem plain_ident : Plain A level (.ident name) ↔ A.IsIdent name := by
  refine ⟨fun h => ?_, fun h => (Plain.ident h).lift⟩
  cases h with
  | ident h => exact h
  | suffixed h => cases h with | ident h => exact h

@[simp] theorem plain_call :
    Plain A level (.call callee items) ↔
      Plain A .suffixed callee ∧ ∀ a ∈ items, Plain A .full a := by
  refine ⟨fun h => ?_, fun h => (Plain.call h.1 h.2).lift⟩
  cases h with
  | call h ha => exact ⟨h, ha⟩
  | suffixed h => cases h with | call h ha => exact ⟨h, ha⟩

@[simp] theorem plain_field :
    Plain A level (.field base name) ↔ Plain A .suffixed base ∧ A.IsMember name := by
  refine ⟨fun h => ?_, fun h => (Plain.field h.1 h.2).lift⟩
  cases h with
  | field h hname => exact ⟨h, hname⟩
  | suffixed h => cases h with | field h hname => exact ⟨h, hname⟩

@[simp] theorem plain_arrow :
    Plain A level (.arrow base name) ↔ Plain A .suffixed base ∧ A.IsMember name := by
  refine ⟨fun h => ?_, fun h => (Plain.arrow h.1 h.2).lift⟩
  cases h with
  | arrow h hname => exact ⟨h, hname⟩
  | suffixed h => cases h with | arrow h hname => exact ⟨h, hname⟩

@[simp] theorem plain_index :
    Plain A level (.index base position) ↔ Plain A .suffixed base ∧ Plain A .full position := by
  refine ⟨fun h => ?_, fun h => (Plain.index h.1 h.2).lift⟩
  cases h with
  | index h hp => exact ⟨h, hp⟩
  | suffixed h => cases h with | index h hp => exact ⟨h, hp⟩

@[simp] theorem plain_addressOf :
    Plain A .full (.addressOf operand) ↔ Plain A .suffixed operand := by
  refine ⟨fun h => ?_, .addressOf⟩
  cases h with
  | addressOf h => exact h
  | suffixed h => cases h

@[simp] theorem plain_not : Plain A .full (.not operand) ↔ Plain A .suffixed operand := by
  refine ⟨fun h => ?_, .not⟩
  cases h with
  | not h => exact h
  | suffixed h => cases h

@[simp] theorem plain_cast :
    Plain A .full (.cast type operand) ↔ A.IsType type ∧ Plain A .suffixed operand := by
  refine ⟨fun h => ?_, fun h => .cast h.1 h.2⟩
  cases h with
  | cast htype h => exact ⟨htype, h⟩
  | suffixed h => cases h

@[simp] theorem plain_binary :
    Plain A .full (.binary op left right) ↔ Plain A .full left ∧ Plain A .full right := by
  refine ⟨fun h => ?_, fun h => .binary op h.1 h.2⟩
  cases h with
  | binary _ hl hr => exact ⟨hl, hr⟩
  | suffixed h => cases h

@[simp] theorem plain_new : Plain A .full (.new type) ↔ A.IsIdent type := by
  refine ⟨fun h => ?_, .new⟩
  cases h with
  | new h => exact h
  | suffixed h => cases h

@[simp] theorem plain_list : Plain A .full (.list items) ↔ ∀ a ∈ items, Plain A .full a := by
  refine ⟨fun h => ?_, .list⟩
  cases h with
  | list h => exact h
  | suffixed h => cases h

attribute [simp] Plain.int Plain.bool Plain.str Plain.null

end Shapes

/-! ## Texts on one line -/

namespace Expr

mutual

/-- The text of an expression on one line. -/
def flat : Expr → List Char
  | .ident name => name.toList
  | .int value => (toString value).toList
  | .float value => (doubleStyle.write value).toList
  | .bool value => (if value then "true" else "false").toList
  | .str text => (quote text).toList
  | .null => "NULL".toList
  | .call callee args => callee.flat ++ '(' :: (separated args ++ [')'])
  | .field base name => base.flat ++ '.' :: name.toList
  | .arrow base name => base.flat ++ '-' :: '>' :: name.toList
  | .index base position => base.flat ++ '[' :: (position.flat ++ [']'])
  | .addressOf operand => '&' :: operand.flat
  | .not operand => '!' :: operand.flat
  | .cast type operand => '(' :: (type.toList ++ ')' :: operand.flat)
  | .binary op left right =>
    (if needsParens op false left then '(' :: (left.flat ++ [')']) else left.flat) ++
      ' ' :: (op.symbol.toList ++ ' ' ::
        (if needsParens op true right then '(' :: (right.flat ++ [')']) else right.flat))
  | .new type => "new".toList ++ ' ' :: (type.toList ++ ['(', ')'])
  | .list items => '\x7b' :: (separated items ++ ['\x7d'])

/-- Items that are separated by commas. -/
def separated : List Expr → List Char
  | [] => []
  | a :: rest => a.flat ++ listed rest

/-- Items that each follow a comma. -/
def listed : List Expr → List Char
  | [] => []
  | a :: rest => ',' :: ' ' :: (a.flat ++ listed rest)

end

/-- The text of an operand: in parentheses where they are needed. -/
def operandText (op : BinaryOp) (right : Bool) (e : Expr) : List Char :=
  if needsParens op right e then '(' :: (e.flat ++ [')']) else e.flat

theorem flat_binary (op : BinaryOp) (left right : Expr) :
    (binary op left right).flat = operandText op false left ++
      ' ' :: (op.symbol.toList ++ ' ' :: operandText op true right) := rfl

theorem docs_eq_map (items : List Expr) : docs items = items.map doc := by
  induction items with
  | nil => rfl
  | cons e rest ih => rw [docs, ih, List.map_cons]

theorem flat_operand (parens : Bool) {d : Doc} {text : List Char} (h : d.flat = text) :
    (if parens then parenthesized d else d).flat =
      if parens then '(' :: (text ++ [')']) else text := by
  cases parens
  · exact h
  · simp [parenthesized, h]

mutual

/-- **The document of an expression prints its text.** -/
theorem flat_doc (e : Expr) : e.doc.flat = e.flat := by
  cases e with
  | ident | int | float | bool | str | null | new => simp [doc, flat]
  | call callee args => simp [doc, flat, flat_doc callee, separated_docs args]
  | field base => simp [doc, flat, flat_doc base]
  | arrow base => simp [doc, flat, flat_doc base]
  | index base position => simp [doc, flat, flat_doc base, flat_doc position]
  | addressOf operand => simp [doc, flat, flat_doc operand]
  | not operand => simp [doc, flat, flat_doc operand]
  | cast type operand => simp [doc, flat, flat_doc operand]
  | binary op left right =>
    simp [doc, flat, flat_operand _ (flat_doc left), flat_operand _ (flat_doc right)]
  | list items => simp [doc, flat, separated_docs items]

theorem separated_docs (items : List Expr) :
    (Doc.separatedMarks (docs items)).flat = separated items := by
  cases items with
  | nil => rfl
  | cons a rest => simp [docs, Doc.separatedMarks, separated, flat_doc a, listed_docs rest]

theorem listed_docs (items : List Expr) :
    Marks.flat ((docs items).flatMap fun item => some ',' :: none :: item.marks) =
      listed items := by
  cases items with
  | nil => rfl
  | cons a rest => simp [docs, listed, flat_doc a, listed_docs rest]

end

end Expr

/-! ## Breaks -/

/-- What an expression may start with: no blank, and no closing bracket. -/
def Opens (c : Char) : Prop := c ∉ [' ', ')', '\x7d']

instance : DecidablePred Opens := fun c => inferInstanceAs (Decidable (c ∉ _))

namespace Alphabet

variable {A : Alphabet} {c : Char}

theorem opens_of_inName (h : A.inName c = true) : Opens c := by
  intro hc
  have hout : ∀ d ∈ [' ', ')', '\x7d'], A.inName d = false := by
    rintro d hd
    simp only [List.mem_cons, List.not_mem_nil, or_false] at hd
    rcases hd with rfl | rfl | rfl <;> exact inName_eq_false rfl (by decide) rfl
  simp [hout c hc] at h

theorem IsIdent.newline_notMem {name : String} (h : A.IsIdent name) : '\n' ∉ name.toList := by
  intro hmem
  have hout : A.inName '\n' = false := inName_eq_false rfl (by decide) rfl
  have hin := h.inName '\n' hmem
  simp [hout] at hin

end Alphabet

/-- An integer is spelled with digits, perhaps after a minus. -/
theorem toList_toString_int (value : Int) :
    ∃ c s, (toString value).toList = c :: s ∧ ∀ d ∈ c :: s, d = '-' ∨ d.isDigit = true := by
  cases value with
  | ofNat n =>
    obtain ⟨d, ds, hds, -⟩ := Binary64.toDigits_eq_cons n
    refine ⟨d, ds, by rw [Binary64.toList_toString_ofNat, hds], fun c hc => ?_⟩
    exact .inr (Binary64.isDigit_toDigits (hds ▸ hc))
  | negSucc n =>
    refine ⟨'-', _, Binary64.toList_toString_negSucc n, fun c hc => ?_⟩
    rcases List.mem_cons.1 hc with rfl | hc
    · exact .inl rfl
    · exact .inr (Binary64.isDigit_toDigits hc)

theorem marks_operand (parens : Bool) (d : Doc) :
    (if parens then parenthesized d else d).marks =
      if parens then some '(' :: (d.marks ++ [some ')']) else d.marks := by
  cases parens
  · rfl
  · simp [parenthesized, Marks.ofChars]

namespace Plain

variable {A : Alphabet} {level : Level} {e : Expr}

/-- Every expression starts with a visible character. -/
theorem opens (h : Plain A level e) : e.doc.marks.Starts Opens := by
  induction h with
  | ident hname =>
    obtain ⟨c, s, hs, hc, -⟩ := hname.exists_cons
    simpa [Expr.doc] using Marks.starts_ofChars hs (Alphabet.opens_of_inName hc)
  | call _ _ ih => simpa [Expr.doc] using ih.append
  | field _ _ ih | arrow _ _ ih => simpa [Expr.doc] using ih.append
  | index _ _ ih => simpa [Expr.doc] using ih.append
  | suffixed _ ih => exact ih
  | int value =>
    obtain ⟨c, s, hs, hc⟩ := toList_toString_int value
    have hopens : Opens c := by
      rcases hc c List.mem_cons_self with rfl | hdigit
      · decide
      · exact Alphabet.latin.opens_of_inName (Alphabet.inName_of_isDigit hdigit)
    simpa [Expr.doc] using Marks.starts_ofChars hs hopens
  | bool value =>
    cases value
    · exact ⟨'f', _, rfl, by decide⟩
    · exact ⟨'t', _, rfl, by decide⟩
  | str text => simpa [Expr.doc, quote, quoteChars] using ⟨'"', _, rfl, by decide⟩
  | null => exact ⟨'N', _, rfl, by decide⟩
  | new _ => simpa [Expr.doc, Marks.ofChars] using ⟨'n', _, rfl, by decide⟩
  | list _ => simpa [Expr.doc, Marks.ofChars] using ⟨'\x7b', _, rfl, by decide⟩
  | addressOf _ => simpa [Expr.doc, Marks.ofChars] using ⟨'&', _, rfl, by decide⟩
  | not _ => simpa [Expr.doc, Marks.ofChars] using ⟨'!', _, rfl, by decide⟩
  | cast _ _ => simpa [Expr.doc, Marks.ofChars] using ⟨'(', _, rfl, by decide⟩
  | @binary op left _ _ _ ih =>
    rw [Expr.doc, Doc.marks_cat, Doc.marks_cat, marks_operand, List.append_assoc]
    refine Marks.Starts.append ?_
    split
    · exact ⟨'(', _, rfl, by decide⟩
    · exact ih

theorem tidy_bracketed {opening closing : String} {items : List Expr}
    (hopening : '\n' ∉ opening.toList) (hclosing : '\n' ∉ closing.toList)
    (hplain : ∀ a ∈ items, Plain A .full a) (htidy : ∀ a ∈ items, a.doc.Tidy) :
    (Doc.bracketed opening (Expr.docs items) closing).Tidy := by
  rw [Expr.docs_eq_map]
  refine Doc.tidy_bracketed hopening hclosing (List.forall_mem_map.2 htidy)
    (List.forall_mem_map.2 fun a ha => (hplain a ha).opens.imp fun c hc => ?_)
  rintro rfl
  exact hc (by decide)

/-- **Breaks stand in front of visible characters only.** -/
theorem tidy (h : Plain A level e) : e.doc.Tidy := by
  induction h with
  | ident hname => exact Doc.tidy_ofText hname.newline_notMem
  | call _ hargs ih iha => exact ih.cat (tidy_bracketed (by decide) (by decide) hargs iha)
  | field _ hname ih | arrow _ hname ih =>
    exact (ih.cat (Doc.tidy_ofText (by decide))).cat (Doc.tidy_ofText hname.1.newline_notMem)
  | index _ _ ih ihp =>
    exact ((ih.cat (Doc.tidy_ofText (by decide))).cat ihp).cat (Doc.tidy_ofText (by decide))
  | suffixed _ ih => exact ih
  | int value =>
    obtain ⟨c, s, hs, hc⟩ := toList_toString_int value
    refine Doc.tidy_ofText fun hmem => ?_
    rcases hc '\n' (hs ▸ hmem) with h | h <;> exact absurd h (by decide)
  | bool value => cases value <;> exact Doc.tidy_ofText (by decide)
  | str text =>
    exact Doc.tidy_ofText fun hmem => by simpa using (Literal.printable_of_mem_quote hmem).1
  | null => exact Doc.tidy_ofText (by decide)
  | new htype => exact Doc.tidy_ofText (by simpa using htype.newline_notMem)
  | list hitems ih => exact tidy_bracketed (by decide) (by decide) hitems ih
  | addressOf _ ih | not _ ih => exact (Doc.tidy_ofText (by decide)).cat ih
  | cast htype _ ih =>
    obtain ⟨base, stars, hbase, rfl⟩ := htype
    exact (Doc.tidy_ofText (by simpa using hbase.newline_notMem)).cat ih
  | binary op _ _ ihl ihr =>
    have hoperand (parens : Bool) {d : Doc} (hd : d.Tidy) :
        (if parens then parenthesized d else d).Tidy := by
      cases parens
      · exact hd
      · exact ((Doc.tidy_ofText (by decide)).cat hd).cat (Doc.tidy_ofText (by decide))
    have hsymbol : '\n' ∉ (" " ++ op.symbol ++ " ").toList := by cases op <;> decide
    exact ((hoperand _ ihl).cat (Doc.tidy_ofText hsymbol)).cat (hoperand _ ihr)

end Plain

end SparseTiling.Code
