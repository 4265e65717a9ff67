import SparseTiling.Proofs.Code.Plain

/-!
# Reading expressions back

A reader for the texts of plain expressions. An operand is a literal, a braced list, a
parenthesised expression, a cast or other prefix operation, or a name with its suffixes;
an expression is a chain of operands, which are joined from the left. Fuel bounds the
reader; every text of a plain expression is read with all fuel from some amount on.

Suffixes and chains are read with an accumulator, so what is said of them is that the
reader of a whole text *arrives* at the expression and goes on with what follows.

* `readExpr`, `readOperand`, `readSuffixes`: the reader.
* `Plain.reads`: it reads every plain expression.
* `Plain.eq_of_flat`: **two plain expressions with one text are the same.**
-/

namespace SparseTiling.Code

open Text (Ends)

/-! ## The reader -/

/-- What follows a character that has to come next. -/
def expect (c : Char) : List Char → Option (List Char)
  | [] => none
  | d :: t => if d = c then some t else none

/-- A whole number without sign. -/
def readNat (s : List Char) : Option (Nat × List Char) :=
  if s.takeWhile Char.isDigit = [] then none
  else some (Binary64.digitsValue (s.takeWhile Char.isDigit), s.dropWhile Char.isDigit)

def readInt : List Char → Option (Int × List Char)
  | '-' :: t => (readNat t).map fun p => (-(p.1 : Int), p.2)
  | s => (readNat s).map fun p => ((p.1 : Int), p.2)

/-- An operator between blanks. -/
def readOp : List Char → Option (BinaryOp × List Char)
  | ' ' :: '-' :: ' ' :: s => some (.sub, s)
  | ' ' :: '=' :: '=' :: ' ' :: s => some (.eq, s)
  | ' ' :: '<' :: '<' :: ' ' :: s => some (.shl, s)
  | _ => none

/-- A comma in front of the first item, as there is one in front of all others. -/
def lead (close : Char) (s : List Char) : List Char :=
  if s.head? = some close then s else ',' :: ' ' :: s

variable (A : Alphabet)

def readName (s : List Char) : Option (String × List Char) :=
  if s.takeWhile A.inName = [] then none
  else some (String.ofList (s.takeWhile A.inName), s.dropWhile A.inName)

/-- A type and the parenthesis behind it. -/
def readType (s : List Char) : Option (String × List Char) :=
  (readName A s).bind fun p =>
    (expect ')' (p.2.dropWhile (· == '*'))).map fun t =>
      (p.1 ++ String.ofList (p.2.takeWhile (· == '*')), t)

/-- The expression that starts with a reserved word. -/
def readReserved (word : String) (s : List Char) : Option (Expr × List Char) :=
  if word = "NULL" then some (.null, s)
  else if word = "true" then some (.bool true, s)
  else if word = "false" then some (.bool false, s)
  else if word = "new" then
    (expect ' ' s).bind fun t => (readName A t).bind fun p =>
      (expect '(' p.2).bind fun u => (expect ')' u).map fun v => (.new p.1, v)
  else none

/-- An operand without parts. -/
def readAtom (s : List Char) : Option (Expr × List Char) :=
  match Literal.read s, readInt s with
  | some p, _ => some (.str p.1, p.2)
  | none, some p => some (.int p.1, p.2)
  | none, none => (readName A s).bind fun p => readReserved A p.1 p.2

mutual

/-- An expression: a chain of operands. -/
def readExpr : Nat → List Char → Option (Expr × List Char)
  | 0, _ => none
  | n + 1, s => (readOperand n s).bind fun p => readChain n p.1 p.2

/-- The rest of a chain, after the operands that were joined so far. -/
def readChain : Nat → Expr → List Char → Option (Expr × List Char)
  | 0, _, _ => none
  | n + 1, left, s =>
    match readOp s with
    | some (op, t) => (readOperand n t).bind fun p => readChain n (.binary op left p.1) p.2
    | none => some (left, s)

/-- One operand. -/
def readOperand : Nat → List Char → Option (Expr × List Char)
  | 0, _ => none
  | n + 1, s =>
    match readAtom A s with
    | some r => some r
    | none =>
      match s with
      | '\x7b' :: t => (readMore n '\x7d' (lead '\x7d' t)).map fun p => (.list p.1, p.2)
      | '&' :: t => (readPrimary n t).map fun p => (.addressOf p.1, p.2)
      | '!' :: t => (readPrimary n t).map fun p => (.not p.1, p.2)
      | '(' :: t =>
        match readType A t with
        | some (type, u) => (readPrimary n u).map fun p => (.cast type p.1, p.2)
        | none => (readExpr n t).bind fun p => (expect ')' p.2).map fun u => (p.1, u)
      | s => readPrimary n s

/-- A name with its suffixes. -/
def readPrimary : Nat → List Char → Option (Expr × List Char)
  | 0, _ => none
  | n + 1, s => (readName A s).bind fun p => readSuffixes n (.ident p.1) p.2

/-- The suffixes after an expression. -/
def readSuffixes : Nat → Expr → List Char → Option (Expr × List Char)
  | 0, _, _ => none
  | n + 1, base, '(' :: t =>
    (readMore n ')' (lead ')' t)).bind fun p => readSuffixes n (.call base p.1) p.2
  | n + 1, base, '.' :: t => (readName A t).bind fun p => readSuffixes n (.field base p.1) p.2
  | n + 1, base, '-' :: '>' :: t =>
    (readName A t).bind fun p => readSuffixes n (.arrow base p.1) p.2
  | n + 1, base, '[' :: t =>
    (readExpr n t).bind fun p => (expect ']' p.2).bind fun u => readSuffixes n (.index base p.1) u
  | _ + 1, base, s => some (base, s)

/-- Items that each follow a comma, up to the closing bracket. -/
def readMore : Nat → Char → List Char → Option (List Expr × List Char)
  | 0, _, _ => none
  | n + 1, close, ',' :: ' ' :: t =>
    (readExpr n t).bind fun p => (readMore n close p.2).map fun q => (p.1 :: q.1, q.2)
  | _ + 1, close, s => (expect close s).map fun t => ([], t)

end

-- The equations of a recursive definition are proved when a simp set first takes it in. Proofs run
-- side by side and would each prove those of the reader again, so it is taken in once before them. The
-- attribute ends with the section: no later proof unfolds the reader unless it says so.
section Equations

attribute [local simp] readExpr readChain readOperand readPrimary readSuffixes readMore

end Equations

/-! ## What may follow -/

/-- The characters after an expression. -/
def closers : List Char := [',', ')', ']', '\x7d']

/-- The characters that start a suffix. -/
def suffixMarks : List Char := ['(', '.', '-', '[']

/-- The characters that start an operand with parts, names apart. -/
def openers : List Char := ['\x7b', '&', '!', '(']

/-- Characters that are in no name. -/
def delimiters : List Char := closers ++ suffixMarks ++ openers ++ [' ', '*', '"']

/-- What may follow an expression: the end, a comma or a closing bracket. -/
def Stops (t : List Char) : Prop := ∀ c s, t = c :: s → c ∈ closers

/-- What may follow an operand: also a blank. -/
def Pauses (t : List Char) : Prop := ∀ c s, t = c :: s → c ∈ ' ' :: closers

variable {A} {t : List Char} {c : Char} {name : String}

theorem inName_delimiter (hc : c ∈ delimiters) : A.inName c = false := by
  have hall : (delimiters.all fun d => !d.isAlpha && decide (d.toNat < 0x80) &&
      !(d.isDigit || d == '_' || d == ':')) = true := by decide
  have hout := List.all_eq_true.1 hall c hc
  simp only [Bool.and_eq_true, Bool.not_eq_true', decide_eq_true_eq] at hout
  exact Alphabet.inName_eq_false hout.1.1 hout.1.2 hout.2

theorem ends_cons (hc : c ∈ delimiters) : Ends A.inName (c :: t) := by
  rintro d s ⟨⟩
  exact inName_delimiter hc

theorem Stops.pauses (h : Stops t) : Pauses t :=
  fun c s hs => List.mem_cons_of_mem _ (h c s hs)

theorem stops_nil : Stops [] := fun _ _ h => by cases h

theorem stops_cons (hc : c ∈ closers) : Stops (c :: t) := by
  rintro d s ⟨⟩
  exact hc

theorem pauses_blank : Pauses (' ' :: t) := by
  rintro d s ⟨⟩
  exact List.mem_cons_self

theorem Pauses.ends (h : Pauses t) : Ends A.inName t := by
  intro c s hs
  have hsub : ' ' :: closers ⊆ delimiters := by
    simp [delimiters, closers, suffixMarks, openers]
  exact inName_delimiter (hsub (h c s hs))

theorem Pauses.noDigit (h : Pauses t) : Ends Char.isDigit t := by
  intro c s hs
  by_contra hdigit
  have hin : Alphabet.latin.inName c = true := Alphabet.inName_of_isDigit (by simpa using hdigit)
  rw [h.ends c s hs] at hin
  cases hin

/-! ## Operands without parts -/

theorem readName_append {w : List Char} (hne : w ≠ []) (hw : ∀ c ∈ w, A.inName c = true)
    (ht : Ends A.inName t) : readName A (w ++ t) = some (String.ofList w, t) := by
  rw [readName, Text.takeWhile_append_ends hw ht, Text.dropWhile_append_ends hw ht, if_neg hne]

theorem readName_ident (h : A.IsIdent name) (ht : Ends A.inName t) :
    readName A (name.toList ++ t) = some (name, t) := by
  rw [readName_append (by simpa using h.nonempty) h.inName ht, String.ofList_toList]

theorem readName_eq_none {c : Char} (hc : A.inName c = false) : readName A (c :: t) = none := by
  simp [readName, hc]

theorem readNat_toDigits (n : Nat) (ht : Ends Char.isDigit t) :
    readNat (Nat.toDigits 10 n ++ t) = some (n, t) := by
  have hdigits : ∀ c ∈ Nat.toDigits 10 n, c.isDigit = true := fun c hc =>
    Binary64.isDigit_toDigits hc
  rw [readNat, Text.takeWhile_append_ends hdigits ht, Text.dropWhile_append_ends hdigits ht,
    if_neg Nat.toDigits_ne_nil, Binary64.digitsValue_toDigits]

theorem readInt_eq_readNat {c : Char} (hc : c ≠ '-') :
    readInt (c :: t) = (readNat (c :: t)).map fun p => ((p.1 : Int), p.2) := by
  unfold readInt
  split
  · next h => exact absurd (List.cons.inj h).1 hc
  · rfl

theorem readInt_toString (value : Int) (ht : Ends Char.isDigit t) :
    readInt ((toString value).toList ++ t) = some (value, t) := by
  cases value with
  | ofNat n =>
    obtain ⟨d, ds, hds, -⟩ := Binary64.toDigits_eq_cons n
    have hdigit : d.isDigit = true := Binary64.isDigit_toDigits (n := n) (by simp [hds])
    have hminus : d ≠ '-' := by rintro rfl; cases hdigit
    rw [Binary64.toList_toString_ofNat, hds, List.cons_append, readInt_eq_readNat hminus,
      ← List.cons_append, ← hds, readNat_toDigits n ht]
    rfl
  | negSucc n =>
    rw [Binary64.toList_toString_negSucc, List.cons_append, readInt, readNat_toDigits _ ht]
    rfl

theorem readInt_eq_none {c : Char} (hdigit : c.isDigit = false) (hminus : c ≠ '-') :
    readInt (c :: t) = none := by
  simp [readInt_eq_readNat hminus, readNat, hdigit]

theorem read_eq_none {c : Char} (hc : c ≠ '"') : Literal.read (c :: t) = none := by
  unfold Literal.read
  split
  · next h => exact absurd (List.cons.inj h).1 hc
  · rfl

theorem readAtom_str (text : String) :
    readAtom A ((quote text).toList ++ t) = some (.str text, t) := by
  rw [readAtom, Literal.read_quote]

theorem readAtom_int (value : Int) (ht : Pauses t) :
    readAtom A ((toString value).toList ++ t) = some (.int value, t) := by
  obtain ⟨c, s, hs, hc⟩ := toList_toString_int value
  have hquote : c ≠ '"' := by
    rintro rfl
    rcases hc _ List.mem_cons_self with h | h <;> cases h
  have hread : Literal.read ((toString value).toList ++ t) = none := by
    rw [hs, List.cons_append, read_eq_none hquote]
  rw [readAtom, hread, readInt_toString value ht.noDigit]

/-- A word is no literal and no number. -/
theorem readAtom_word {c : Char} {w : List Char} (hw : ∀ d ∈ c :: w, A.inName d = true)
    (hdigit : c.isDigit = false) (ht : Ends A.inName t) :
    readAtom A (c :: w ++ t) = readReserved A (String.ofList (c :: w)) t := by
  have hc : A.inName c = true := hw c List.mem_cons_self
  have hne (d : Char) (hd : d ∈ delimiters) : c ≠ d := by
    rintro rfl
    simp [inName_delimiter hd] at hc
  have hname := readName_append (List.cons_ne_nil c w) hw ht
  rw [readAtom, hname, List.cons_append, read_eq_none (hne '"' (by decide)),
    readInt_eq_none hdigit (hne '-' (by decide))]
  rfl

theorem readAtom_opener (hc : c ∈ openers) : readAtom A (c :: t) = none := by
  have hname : A.inName c = false := inName_delimiter (by simp [delimiters, hc])
  have hdigit : c.isDigit = false := by
    by_contra h
    simp [Alphabet.inName_of_isDigit (A := A) (by simpa using h)] at hname
  have hquote : c ≠ '"' := by rintro rfl; exact absurd hc (by decide)
  have hminus : c ≠ '-' := by rintro rfl; exact absurd hc (by decide)
  rw [readAtom, read_eq_none hquote, readInt_eq_none hdigit hminus, readName_eq_none hname]
  rfl

theorem readReserved_eq_none (h : name ∉ Alphabet.reserved) : readReserved A name t = none := by
  simp only [Alphabet.reserved, List.mem_cons, List.not_mem_nil, or_false, not_or] at h
  simp [readReserved, h]

/-- A reserved word in front of something else. -/
theorem readAtom_reserved (hword : name ∈ Alphabet.reserved) (ht : Ends A.inName t) :
    readAtom A (name.toList ++ t) = readReserved A name t := by
  have hwords : ∀ w ∈ Alphabet.reserved, ∃ c s, w.toList = c :: s ∧ c.isDigit = false ∧
      Alphabet.latin.spells w.toList = true := by
    simp only [Alphabet.reserved, List.mem_cons, List.not_mem_nil, or_false, forall_eq_or_imp,
      forall_eq]
    refine ⟨?_, ?_, ?_, ?_⟩ <;> exact ⟨_, _, rfl, rfl, rfl⟩
  obtain ⟨c, s, hs, hdigit, hspells⟩ := hwords name hword
  have hin := Alphabet.inName_of_spells (A := A) (Alphabet.spells_of_latin hspells)
  rw [hs] at hin ⊢
  rw [readAtom_word hin hdigit ht, ← hs, String.ofList_toList]

theorem readAtom_ident (h : A.IsIdent name) (ht : Ends A.inName t) :
    readAtom A (name.toList ++ t) = none := by
  obtain ⟨c, s, hs, -, hdigit⟩ := h.exists_cons
  have hin := h.inName
  rw [hs] at hin ⊢
  rw [readAtom_word hin hdigit ht, ← hs, String.ofList_toList, readReserved_eq_none h.free]

/-! ## Arriving at an expression -/

namespace Expr

/-- The text of an operand on the right. -/
def tight (e : Expr) : List Char := operandText .sub true e

theorem tight_binary (op : BinaryOp) (left right : Expr) :
    (binary op left right).tight = '(' :: ((binary op left right).flat ++ [')']) := by
  simp [tight, operandText, needsParens]

/-- An expression that is no operation. -/
def Single : Expr → Prop
  | .binary _ _ _ => False
  | _ => True

variable {e : Expr}

theorem Single.tight (h : e.Single) : e.tight = e.flat := by
  cases e with
  | binary op left right => cases h
  | _ => rfl

/-- Only operations need parentheses. -/
theorem operandText_parens {op : BinaryOp} {right : Bool} (h : needsParens op right e = true) :
    operandText op right e = e.tight := by
  cases e with
  | binary op' l r => rw [operandText, if_pos h, tight_binary]
  | _ => cases h

theorem operandText_right (op : BinaryOp) (e : Expr) : operandText op true e = e.tight := by
  cases e <;> rfl

end Expr

/-- The reader arrives at a suffixed expression, and goes on with its suffixes. -/
def ReadsPrimary (A : Alphabet) (e : Expr) : Prop :=
  ∃ k N, ∀ n, N ≤ n → ∀ t, Ends A.inName t →
    readPrimary A (n + k) (e.flat ++ t) = readSuffixes A n e t

/-- The reader takes an operand. -/
def ReadsOperand (A : Alphabet) (e : Expr) : Prop :=
  ∃ N, ∀ n, N ≤ n → ∀ t, Pauses t → readOperand A n (e.tight ++ t) = some (e, t)

/-- The reader arrives at an expression, and goes on with its chain. -/
def ReadsChain (A : Alphabet) (e : Expr) : Prop :=
  ∃ k N, ∀ n, N ≤ n → ∀ t, Pauses t → readExpr A (n + k) (e.flat ++ t) = readChain A n e t

/-- The reader takes an expression. -/
def ReadsExpr (A : Alphabet) (e : Expr) : Prop :=
  ∃ N, ∀ n, N ≤ n → ∀ t, Stops t → readExpr A n (e.flat ++ t) = some (e, t)

variable {e : Expr}

theorem readOp_of_stops (h : Stops t) : readOp t = none := by
  unfold readOp
  split
  iterate 3 exact absurd (h _ _ rfl) (by decide)
  · rfl

theorem readSuffixes_of_pauses (n : Nat) (h : Pauses t) :
    readSuffixes A (n + 1) e t = some (e, t) := by
  cases t with
  | nil => rfl
  | cons c s =>
    have hc := h c s rfl
    simp only [closers, List.mem_cons, List.not_mem_nil, or_false] at hc
    rcases hc with rfl | rfl | rfl | rfl | rfl <;> rfl

theorem readOp_symbol (op : BinaryOp) :
    readOp (' ' :: (op.symbol.toList ++ ' ' :: t)) = some (op, t) := by
  cases op <;> rfl

theorem ReadsChain.expr (h : ReadsChain A e) : ReadsExpr A e := by
  obtain ⟨k, N, h⟩ := h
  refine ⟨N + 1 + k, fun n hn t ht => ?_⟩
  obtain ⟨m, rfl⟩ : ∃ m, n = m + 1 + k := ⟨n - 1 - k, by omega⟩
  rw [h (m + 1) (by omega) t ht.pauses, readChain, readOp_of_stops ht]

theorem ReadsOperand.chain (hsingle : e.Single) (h : ReadsOperand A e) : ReadsChain A e := by
  obtain ⟨N, h⟩ := h
  refine ⟨1, N, fun n hn t ht => ?_⟩
  rw [readExpr, ← hsingle.tight, h n hn t ht]
  rfl

/-- What is no operation is its own text as an operand. -/
theorem readsOperand_of_single (hsingle : e.Single)
    (h : ∃ N, ∀ n, N ≤ n → ∀ t, Pauses t → readOperand A (n + 1) (e.flat ++ t) = some (e, t)) :
    ReadsOperand A e := by
  obtain ⟨N, h⟩ := h
  refine ⟨N + 1, fun n hn t ht => ?_⟩
  obtain ⟨m, rfl⟩ : ∃ m, n = m + 1 := ⟨n - 1, by omega⟩
  rw [hsingle.tight, h m (by omega) t ht]

theorem readsOperand_of_atom (hsingle : e.Single)
    (h : ∀ t, Pauses t → readAtom A (e.flat ++ t) = some (e, t)) : ReadsOperand A e :=
  readsOperand_of_single hsingle ⟨0, fun n _ t ht => by simp [readOperand, h t ht]⟩

theorem readOperand_name (n : Nat) (h : A.IsIdent name) (ht : Ends A.inName t) :
    readOperand A (n + 1) (name.toList ++ t) = readPrimary A n (name.toList ++ t) := by
  obtain ⟨c, s, hs, hc, -⟩ := h.exists_cons
  have hopener (d : Char) (hd : d ∈ openers) : c ≠ d := by
    rintro rfl
    simp [inName_delimiter (A := A) (c := c) (by simp [delimiters, hd])] at hc
  have hatom := readAtom_ident h ht
  -- the first character decides, and that of a name opens none of the other operands
  rw [hs, List.cons_append] at hatom ⊢
  simp only [readOperand, hatom]
  split
  iterate 4 next heq => exact absurd (List.cons.inj heq).1 (hopener _ (by decide))
  · rfl

/-! ## Lists -/

theorem Plain.flat_cons {level : Level} (h : Plain A level e) :
    ∃ c s, e.flat = c :: s ∧ Opens c := by
  obtain ⟨c, t, hmarks, hc⟩ := h.opens
  exact ⟨c, Marks.flat t, by rw [← Expr.flat_doc, Doc.flat, hmarks]; rfl, hc⟩

variable {items : List Expr} {close : Char}

theorem lead_separated (hclose : close ∈ [')', '\x7d']) (h : ∀ a ∈ items, Plain A .full a) :
    lead close (Expr.separated items ++ close :: t) = Expr.listed items ++ close :: t := by
  cases items with
  | nil => simp [Expr.separated, Expr.listed, lead]
  | cons a rest =>
    obtain ⟨c, s, hs, hc⟩ := (h a List.mem_cons_self).flat_cons
    have hne : c ≠ close := by
      rintro rfl
      exact hc (List.mem_cons_of_mem _ hclose)
    simp [Expr.separated, Expr.listed, lead, hs, hne]

theorem stops_listed (hclose : close ∈ [')', '\x7d']) (items : List Expr) :
    Stops (Expr.listed items ++ close :: t) := by
  cases items with
  | nil =>
    have hsub : [')', '\x7d'] ⊆ closers := by simp [closers]
    exact stops_cons (hsub hclose)
  | cons a rest => exact stops_cons (by decide)

/-- The reader takes the items of a list. -/
theorem readMore_listed (hclose : close ∈ [')', '\x7d']) (h : ∀ a ∈ items, ReadsExpr A a) :
    ∃ N, ∀ n, N ≤ n → ∀ t,
      readMore A n close (Expr.listed items ++ close :: t) = some (items, t) := by
  induction items with
  | nil =>
    refine ⟨1, fun n hn t => ?_⟩
    obtain ⟨m, rfl⟩ : ∃ m, n = m + 1 := ⟨n - 1, by omega⟩
    simp only [List.mem_cons, List.not_mem_nil, or_false] at hclose
    rcases hclose with rfl | rfl <;> rfl
  | cons a rest ih =>
    obtain ⟨N₁, hfirst⟩ := h a List.mem_cons_self
    obtain ⟨N₂, hrest⟩ := ih fun b hb => h b (List.mem_cons_of_mem _ hb)
    refine ⟨max N₁ N₂ + 1, fun n hn t => ?_⟩
    obtain ⟨m, rfl⟩ : ∃ m, n = m + 1 := ⟨n - 1, by omega⟩
    have htext : Expr.listed (a :: rest) ++ close :: t =
        ',' :: ' ' :: (a.flat ++ (Expr.listed rest ++ close :: t)) := by simp [Expr.listed]
    rw [htext, readMore, hfirst m (by omega) _ (stops_listed hclose rest)]
    simp [hrest m (by omega) t]

/-! ## Names with suffixes -/

/-- What follows the name at the start: nothing, or the mark of a suffix. -/
def Suffixes (s : List Char) : Prop := ∀ c u, s = c :: u → c ∈ suffixMarks

theorem suffixes_cons {s : List Char} (hc : c ∈ suffixMarks) : Suffixes (c :: s) := by
  rintro d u ⟨⟩
  exact hc

theorem Suffixes.ends {s : List Char} (h : Suffixes s) (ht : Ends A.inName t) :
    Ends A.inName (s ++ t) := by
  cases s with
  | nil => exact ht
  | cons c u => exact ends_cons (by simp [delimiters, h c u rfl])

theorem readsPrimary_ident (h : A.IsIdent name) : ReadsPrimary A (.ident name) := by
  refine ⟨1, 0, fun n _ t ht => ?_⟩
  rw [Expr.flat, readPrimary, readName_ident h ht]
  rfl

/-- One more suffix: the reader arrives at the base, and one step later at the whole. -/
theorem ReadsPrimary.suffix {base : Expr} {suffix : List Char} (h : ReadsPrimary A base)
    (htext : e.flat = base.flat ++ suffix) (hends : ∀ t, Ends A.inName (suffix ++ t))
    (hstep : ∃ N, ∀ n, N ≤ n → ∀ t, Ends A.inName t →
      readSuffixes A (n + 1) base (suffix ++ t) = readSuffixes A n e t) :
    ReadsPrimary A e := by
  obtain ⟨k, N₁, h⟩ := h
  obtain ⟨N₂, hstep⟩ := hstep
  refine ⟨1 + k, max N₁ N₂, fun n hn t ht => ?_⟩
  rw [htext, List.append_assoc, ← Nat.add_assoc, h (n + 1) (by omega) _ (hends t),
    hstep n (by omega) t ht]

theorem readsPrimary_call {callee : Expr} {args : List Expr} (h : ReadsPrimary A callee)
    (hplain : ∀ a ∈ args, Plain A .full a) (hargs : ∀ a ∈ args, ReadsExpr A a) :
    ReadsPrimary A (.call callee args) := by
  obtain ⟨N, hmore⟩ := readMore_listed (show ')' ∈ [')', '\x7d'] by decide) hargs
  refine h.suffix rfl (fun t => ends_cons (by decide))
    ⟨N, fun n hn t _ => ?_⟩
  rw [List.cons_append, readSuffixes, List.append_assoc, List.singleton_append,
    lead_separated (by decide) hplain, hmore n hn t]
  rfl

theorem readsPrimary_field {base : Expr} (h : ReadsPrimary A base) (hname : A.IsIdent name) :
    ReadsPrimary A (.field base name) := by
  refine h.suffix rfl (fun t => ends_cons (by decide))
    ⟨0, fun n _ t ht => ?_⟩
  rw [List.cons_append, readSuffixes, readName_ident hname ht]
  rfl

theorem readsPrimary_arrow {base : Expr} (h : ReadsPrimary A base) (hname : A.IsIdent name) :
    ReadsPrimary A (.arrow base name) := by
  refine h.suffix rfl (fun t => ends_cons (by decide))
    ⟨0, fun n _ t ht => ?_⟩
  rw [List.cons_append, List.cons_append, readSuffixes, readName_ident hname ht]
  rfl

theorem readsPrimary_index {base position : Expr} (h : ReadsPrimary A base)
    (hposition : ReadsExpr A position) : ReadsPrimary A (.index base position) := by
  obtain ⟨N, hposition⟩ := hposition
  refine h.suffix rfl (fun t => ends_cons (by decide))
    ⟨N, fun n hn t ht => ?_⟩
  rw [List.cons_append, readSuffixes, List.append_assoc, List.singleton_append,
    hposition n hn _ (stops_cons (by decide))]
  rfl

/-- A suffixed expression is taken where no suffix follows. -/
theorem ReadsPrimary.take (h : ReadsPrimary A e) :
    ∃ N, ∀ n, N ≤ n → ∀ t, Pauses t → readPrimary A n (e.flat ++ t) = some (e, t) := by
  obtain ⟨k, N, h⟩ := h
  refine ⟨N + 1 + k, fun n hn t ht => ?_⟩
  obtain ⟨m, rfl⟩ : ∃ m, n = m + 1 + k := ⟨n - 1 - k, by omega⟩
  rw [h (m + 1) (by omega) t ht.ends, readSuffixes_of_pauses m ht]

/-- A suffixed expression starts with an identifier. -/
theorem Plain.head (h : Plain A .suffixed e) :
    ∃ name s, A.IsIdent name ∧ e.flat = name.toList ++ s ∧ Suffixes s := by
  have hsuffix {base : Expr} {suffix : List Char} (hs : Suffixes suffix)
      (ih : ∃ name s, A.IsIdent name ∧ base.flat = name.toList ++ s ∧ Suffixes s) :
      ∃ name s, A.IsIdent name ∧ base.flat ++ suffix = name.toList ++ s ∧ Suffixes s := by
    obtain ⟨name, s, hname, htext, hrest⟩ := ih
    refine ⟨name, s ++ suffix, hname, by rw [htext, List.append_assoc], ?_⟩
    cases s with
    | nil => exact hs
    | cons c u => exact suffixes_cons (hrest c u rfl)
  -- the level is an index of the class, so it has to vary for the induction
  generalize hlevel : Level.suffixed = level at h
  induction h with
  | @ident name hname => exact ⟨name, [], hname, by simp [Expr.flat], fun _ _ h => by cases h⟩
  | call _ _ ih => exact hsuffix (suffixes_cons (by decide)) (ih hlevel)
  | field _ _ ih => exact hsuffix (suffixes_cons (by decide)) (ih hlevel)
  | arrow _ _ ih => exact hsuffix (suffixes_cons (by decide)) (ih hlevel)
  | index _ _ ih => exact hsuffix (suffixes_cons (by decide)) (ih hlevel)
  | _ => cases hlevel

/-! ## Operands -/

theorem Plain.single (h : Plain A .suffixed e) : e.Single := by
  cases h <;> trivial

theorem ReadsPrimary.operand (hplain : Plain A .suffixed e) (h : ReadsPrimary A e) :
    ReadsOperand A e := by
  obtain ⟨N, htake⟩ := h.take
  obtain ⟨name, s, hname, htext, hs⟩ := hplain.head
  refine readsOperand_of_single hplain.single ⟨N, fun n hn t ht => ?_⟩
  have hread := htake n hn t ht
  rw [htext, List.append_assoc] at hread ⊢
  rw [readOperand_name n hname (hs.ends ht.ends), hread]

theorem readsOperand_list (hplain : ∀ a ∈ items, Plain A .full a)
    (h : ∀ a ∈ items, ReadsExpr A a) : ReadsOperand A (.list items) := by
  obtain ⟨N, hmore⟩ := readMore_listed (show '\x7d' ∈ [')', '\x7d'] by decide) h
  refine readsOperand_of_single trivial ⟨N, fun n hn t _ => ?_⟩
  have hmore := hmore n hn t
  rw [← lead_separated (by decide) hplain] at hmore
  simp (disch := decide) [Expr.flat, readOperand, readAtom_opener, hmore]

/-- An operation in front of a suffixed expression: its mark is read, then the expression. -/
theorem ReadsPrimary.under {f : Expr → Expr} (h : ReadsPrimary A e) (mark : List Char)
    (hsingle : (f e).Single) (htext : (f e).flat = mark ++ e.flat)
    (hstep : ∀ n s, readOperand A (n + 1) (mark ++ s) =
      (readPrimary A n s).map fun p => (f p.1, p.2)) : ReadsOperand A (f e) := by
  obtain ⟨N, htake⟩ := h.take
  refine readsOperand_of_single hsingle ⟨N, fun n hn t ht => ?_⟩
  rw [htext, List.append_assoc, hstep, htake n hn t ht]
  rfl

theorem readsOperand_addressOf (h : ReadsPrimary A e) : ReadsOperand A (.addressOf e) :=
  h.under ['&'] trivial rfl fun n s => by
    simp (disch := decide) [readOperand, readAtom_opener]

theorem readsOperand_not (h : ReadsPrimary A e) : ReadsOperand A (.not e) :=
  h.under ['!'] trivial rfl fun n s => by
    simp (disch := decide) [readOperand, readAtom_opener]

theorem readType_append {type : String} (h : A.IsType type) :
    readType A (type.toList ++ ')' :: t) = some (type, t) := by
  obtain ⟨base, stars, hbase, rfl⟩ := h
  have hstars : ∀ c ∈ List.replicate stars '*', (c == '*') = true := by
    intro c hc
    simp [List.eq_of_mem_replicate hc]
  have hclose : Ends (· == '*') (')' :: t) := by rintro d s ⟨⟩; rfl
  have hends : Ends A.inName (List.replicate stars '*' ++ ')' :: t) := by
    cases stars with
    | zero => exact ends_cons (by decide)
    | succ n => exact ends_cons (by decide)
  rw [String.toList_append, String.toList_ofList, List.append_assoc, readType,
    readName_ident hbase hends, Option.bind_some, Text.dropWhile_append_ends hstars hclose,
    Text.takeWhile_append_ends hstars hclose]
  simp [expect]

theorem readsOperand_cast {type : String} (htype : A.IsType type) (h : ReadsPrimary A e) :
    ReadsOperand A (.cast type e) :=
  h.under ('(' :: (type.toList ++ [')'])) trivial (by simp [Expr.flat]) fun n s => by
    simp (disch := decide) [readOperand, readAtom_opener, readType_append htype]

theorem readsOperand_str (text : String) : ReadsOperand A (.str text) :=
  readsOperand_of_atom trivial fun t _ => by
    rw [Expr.flat, readAtom_str]

theorem readsOperand_int (value : Int) : ReadsOperand A (.int value) :=
  readsOperand_of_atom trivial fun t ht => by
    rw [Expr.flat, readAtom_int value ht]

theorem readsOperand_null : ReadsOperand A .null :=
  readsOperand_of_atom trivial fun t ht => by
    rw [Expr.flat, readAtom_reserved (by decide) ht.ends]
    rfl

theorem readsOperand_bool (value : Bool) : ReadsOperand A (.bool value) :=
  readsOperand_of_atom trivial fun t ht => by
    rw [Expr.flat, readAtom_reserved (by cases value <;> decide) ht.ends]
    cases value <;> rfl

theorem readsOperand_new {type : String} (h : A.IsIdent type) : ReadsOperand A (.new type) :=
  readsOperand_of_atom trivial fun t ht => by
    have hblank : Ends A.inName (' ' :: (type.toList ++ '(' :: ')' :: t)) :=
      ends_cons (by decide)
    have hparen : Ends A.inName ('(' :: ')' :: t) := ends_cons (by decide)
    have htext : (Expr.new type).flat ++ t =
        "new".toList ++ ' ' :: (type.toList ++ '(' :: ')' :: t) := by simp [Expr.flat]
    rw [htext, readAtom_reserved (by decide) hblank]
    simp [readReserved, expect, readName_ident h hparen]

/-! ## Chains of operations -/

/-- A text that starts with a word and then something other than a star or a closing
parenthesis: not the inside of a cast. -/
def Leads (A : Alphabet) (s : List Char) : Prop :=
  ∃ w c u, s = w ++ c :: u ∧ (∀ x ∈ w, A.inName x = true) ∧ c ∈ delimiters ∧ c ≠ '*' ∧ c ≠ ')'

theorem Leads.append {s : List Char} (h : Leads A s) : Leads A (s ++ t) := by
  obtain ⟨w, c, u, rfl, hrest⟩ := h
  exact ⟨w, c, u ++ t, by simp, hrest⟩

theorem Leads.readType_eq_none {s : List Char} (h : Leads A s) : readType A s = none := by
  obtain ⟨w, c, u, rfl, hw, hc, hstar, hclose⟩ := h
  by_cases hne : w = []
  · simp [hne, readType, readName_eq_none (inName_delimiter hc)]
  · simp [readType, readName_append hne hw (ends_cons hc), hstar, expect, hclose]

theorem leads_word {w : List Char} (hw : ∀ x ∈ w, A.inName x = true) (hc : c ∈ delimiters)
    (hstar : c ≠ '*') (hclose : c ≠ ')') : Leads A (w ++ c :: t) :=
  ⟨w, c, t, rfl, hw, hc, hstar, hclose⟩

theorem leads_blank {w : List Char} (hw : ∀ x ∈ w, A.inName x = true) :
    Leads A (w ++ ' ' :: t) :=
  leads_word hw (by decide) (by decide) (by decide)

theorem leads_mark (hc : c ∈ '"' :: '-' :: openers) : Leads A (c :: t) := by
  refine leads_word (w := []) (by simp) ?_ ?_ ?_
  · have hsub : '"' :: '-' :: openers ⊆ delimiters := by
      simp [delimiters, closers, suffixMarks, openers]
    exact hsub hc
  · rintro rfl
    exact absurd hc (by decide)
  · rintro rfl
    exact absurd hc (by decide)

theorem leads_reserved (word : String) (h : Alphabet.latin.spells word.toList = true) :
    Leads A (word.toList ++ ' ' :: t) :=
  leads_blank (Alphabet.inName_of_spells (Alphabet.spells_of_latin h))

theorem leads_binary {op : BinaryOp} {left right : Expr}
    (h : ∀ t, Leads A (left.flat ++ ' ' :: t)) : Leads A (Expr.binary op left right).flat := by
  rw [Expr.flat_binary, Expr.operandText]
  split
  · exact leads_mark (by decide)
  · exact h _

/-- A plain expression in front of an operator is not the inside of a cast. -/
theorem Plain.leads (h : Plain A .full e) : Leads A (e.flat ++ ' ' :: t) := by
  generalize hlevel : Level.full = level at h
  induction h generalizing t with
  | suffixed h =>
    obtain ⟨name, s, hname, htext, hs⟩ := h.head
    rw [htext, List.append_assoc]
    cases s with
    | nil => exact leads_blank hname.inName
    | cons c u =>
      have hc := hs c u rfl
      refine leads_word hname.inName (by simp [delimiters, hc]) ?_ ?_
      · rintro rfl
        exact absurd hc (by decide)
      · rintro rfl
        exact absurd hc (by decide)
  | int value =>
    rw [Expr.flat]
    cases value with
    | ofNat n =>
      rw [Binary64.toList_toString_ofNat]
      exact leads_blank fun c hc => Alphabet.inName_of_isDigit (Binary64.isDigit_toDigits hc)
    | negSucc n =>
      rw [Binary64.toList_toString_negSucc]
      exact leads_mark (by decide)
  | bool value =>
    rw [Expr.flat]
    cases value <;> exact leads_reserved _ rfl
  | str text =>
    rw [Expr.flat, quote, String.toList_ofList]
    exact leads_mark (c := '"') (by decide)
  | null => exact leads_reserved "NULL" rfl
  | new _ => rw [Expr.flat, List.append_assoc]; exact leads_reserved "new" rfl
  | list _ => rw [Expr.flat]; exact leads_mark (by decide)
  | addressOf _ => rw [Expr.flat]; exact leads_mark (by decide)
  | not _ => rw [Expr.flat]; exact leads_mark (by decide)
  | cast _ _ => rw [Expr.flat]; exact leads_mark (by decide)
  | binary op _ _ ih => exact (leads_binary fun t => ih hlevel).append
  | _ => cases hlevel

theorem readsChain_binary (op : BinaryOp) {left right : Expr} (hchain : ReadsChain A left)
    (hleft : ReadsOperand A left) (hright : ReadsOperand A right) :
    ReadsChain A (.binary op left right) := by
  -- with or without parentheses, the reader arrives at the left operand
  have harrive : ∃ k N, ∀ n, N ≤ n → ∀ t, Pauses t →
      readExpr A (n + k) (Expr.operandText op false left ++ t) = readChain A n left t := by
    by_cases hparens : needsParens op false left = true
    · obtain ⟨N, hleft⟩ := hleft
      refine ⟨1, N, fun n hn t ht => ?_⟩
      rw [Expr.operandText_parens hparens, readExpr, hleft n hn t ht]
      rfl
    · rw [Expr.operandText, if_neg hparens]
      exact hchain
  obtain ⟨k, N₁, harrive⟩ := harrive
  obtain ⟨N₂, hright⟩ := hright
  refine ⟨1 + k, max N₁ N₂, fun n hn t ht => ?_⟩
  have htext : (Expr.binary op left right).flat ++ t = Expr.operandText op false left ++
      ' ' :: (op.symbol.toList ++ ' ' :: (right.tight ++ t)) := by
    simp [Expr.flat_binary, Expr.operandText_right]
  rw [htext, ← Nat.add_assoc, harrive (n + 1) (by omega) _ pauses_blank, readChain, readOp_symbol]
  simp [hright n (by omega) t ht]

/-- An operation in parentheses is not taken for a cast. -/
theorem readsOperand_binary {op : BinaryOp} {left right : Expr} (hplain : Plain A .full left)
    (h : ReadsExpr A (.binary op left right)) : ReadsOperand A (.binary op left right) := by
  obtain ⟨N, h⟩ := h
  refine ⟨N + 1, fun n hn t ht => ?_⟩
  obtain ⟨m, rfl⟩ : ∃ m, n = m + 1 := ⟨n - 1, by omega⟩
  have hread := h m (by omega) (')' :: t) (stops_cons (by decide))
  -- a type would end at a closing parenthesis, but a blank or a mark comes first
  have htype : readType A ((Expr.binary op left right).flat ++ ')' :: t) = none :=
    (leads_binary fun t => hplain.leads).append.readType_eq_none
  simp (disch := decide) [Expr.tight_binary, readOperand, readAtom_opener, htype, hread, expect]

/-! ## Every plain expression -/

/-- What the reader does with a plain expression. -/
def Reads (A : Alphabet) : Level → Expr → Prop
  | .suffixed, e => ReadsPrimary A e
  | .full, e => ReadsOperand A e ∧ ReadsChain A e

theorem ReadsOperand.reads (hsingle : e.Single) (h : ReadsOperand A e) : Reads A .full e :=
  ⟨h, h.chain hsingle⟩

/-- **The reader reads every plain expression.** -/
theorem Plain.reads {level : Level} (h : Plain A level e) : Reads A level e := by
  induction h with
  | ident hname => exact readsPrimary_ident hname
  | call _ hargs ih iha => exact readsPrimary_call ih hargs fun a ha => (iha a ha).2.expr
  | field _ hname ih => exact readsPrimary_field ih hname.1
  | arrow _ hname ih => exact readsPrimary_arrow ih hname.1
  | index _ _ ih ihp => exact readsPrimary_index ih ihp.2.expr
  | suffixed hplain ih => exact (ReadsPrimary.operand hplain ih).reads hplain.single
  | int value => exact (readsOperand_int value).reads trivial
  | bool value => exact (readsOperand_bool value).reads trivial
  | str text => exact (readsOperand_str text).reads trivial
  | null => exact readsOperand_null.reads trivial
  | new htype => exact (readsOperand_new htype).reads trivial
  | list hitems ih =>
    exact (readsOperand_list hitems fun a ha => (ih a ha).2.expr).reads trivial
  | addressOf _ ih => exact (readsOperand_addressOf ih).reads trivial
  | not _ ih => exact (readsOperand_not ih).reads trivial
  | cast htype _ ih => exact (readsOperand_cast htype ih).reads trivial
  | binary op hleft _ ihl ihr =>
    -- the left operand may be a chain that goes on, the right one has to be one operand
    have hchain := readsChain_binary op ihl.2 ihl.1 ihr.1
    exact ⟨readsOperand_binary hleft hchain.expr, hchain⟩

/-- **Two plain expressions with one text are the same.** -/
theorem Plain.eq_of_flat {e₁ e₂ : Expr} (h₁ : Plain A .full e₁) (h₂ : Plain A .full e₂)
    (h : e₁.flat = e₂.flat) : e₁ = e₂ := by
  obtain ⟨N₁, hread₁⟩ := h₁.reads.2.expr
  obtain ⟨N₂, hread₂⟩ := h₂.reads.2.expr
  -- with fuel for both, the reader gives both expressions for the one text
  have hfirst := hread₁ (max N₁ N₂) (by omega) [] stops_nil
  have hsecond := hread₂ (max N₁ N₂) (by omega) [] stops_nil
  rw [h, hsecond] at hfirst
  simpa using hfirst.symm

end SparseTiling.Code
