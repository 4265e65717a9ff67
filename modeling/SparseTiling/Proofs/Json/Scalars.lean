import SparseTiling.Json.Print
import SparseTiling.Json.Typed
import SparseTiling.Proofs.Decimal.Digits

/-!
# Scalars read back

A value that was written is read back by the reader of its kind, whatever blanks stand
in front of it, up to what follows it.

* `Follows`: what may follow a value in written text.
* `Reads`: a reader takes a text for a value.
* `quotedRun_escape`, `run_text`: texts, character by character.
* `run_number`: whole numbers.
* `reads_string`, `reads_bool`, `reads_int`, `reads_optional`, `reads_word`: the scalars.
-/

namespace SparseTiling.Json

open Text (Ends)

/-- What may follow a value: nothing, a comma, or a blank. -/
def Follows (rest : List Char) : Prop := ∀ c s, rest = c :: s → c = ',' ∨ isSpace c = true

/-- What the text of a value may start with: no blank, and no closing bracket. -/
def Opens (c : Char) : Prop := isSpace c = false ∧ c ≠ ']' ∧ c ≠ '\x7d'

/-- **A reader takes a text for a value:** after blanks, and up to what follows. -/
structure Reads {α : Type} (r : Reader α) (text : List Char) (x : α) : Prop where
  opens : ∃ c s, text = c :: s ∧ Opens c
  run : ∀ gap rest, gap.all isSpace = true → Follows rest →
    r.run (gap ++ text ++ rest) = .ok (x, rest)

/-- A reader takes a value, written at any level, for `x`. -/
def ReadsAs {α : Type} (r : Reader α) (value : Json) (x : α) : Prop :=
  ∀ level, Reads r (value.write level) x

variable {α β : Type} {rest gap : List Char}

theorem follows_nil : Follows [] := fun _ _ h => by simp at h

theorem follows_newLine (level : Nat) (s : List Char) : Follows (newLine level ++ s) := by
  intro c t h
  obtain rfl : '\n' = c := (List.cons.inj h).1
  exact .inr rfl

theorem follows_comma (s : List Char) : Follows (',' :: s) := fun _ _ h =>
  .inl (List.cons.inj h).1.symm

theorem all_isSpace_newLine (level : Nat) : (newLine level).all isSpace = true := by
  have hblank : isSpace ' ' = true := rfl
  have hline : isSpace '\n' = true := rfl
  simp [newLine, hblank, hline]

theorem Follows.noDigit (h : Follows rest) : Ends Char.isDigit rest := by
  intro c s he
  rcases h c s he with rfl | hc
  · rfl
  · simp only [isSpace, Bool.or_eq_true, decide_eq_true_eq] at hc
    rcases hc with ((rfl | rfl) | rfl) | rfl <;> rfl

/-- What follows a number is neither a point nor the mark of an exponent. -/
theorem Follows.head?_ne (h : Follows rest) {c : Char} (hc : c ≠ ',') (hs : isSpace c = false) :
    rest.head? ≠ some c := by
  intro he
  cases rest with
  | nil => simp at he
  | cons d s =>
    obtain rfl : d = c := by simpa using he
    rcases h d s rfl with hd | hd
    · exact hc hd
    · simp [hs] at hd

/-! ## Readers -/

namespace Reader

theorem dropWhile_gap {s : List Char} {c : Char} (hgap : gap.all isSpace = true)
    (hc : isSpace c = false) : (gap ++ c :: s).dropWhile isSpace = c :: s := by
  rw [List.dropWhile_append_of_pos fun a ha => List.all_eq_true.1 hgap a ha]
  simp [hc]

theorem run_blanks {s : List Char} {c : Char} (hgap : gap.all isSpace = true)
    (hc : isSpace c = false) : blanks.run (gap ++ c :: s) = .ok ((), c :: s) := by
  simp [blanks, dropWhile_gap hgap hc]

theorem run_next? (c : Char) (s : List Char) : next?.run (c :: s) = .ok (some c, s) := rfl

theorem run_peek? (s : List Char) : peek?.run s = .ok (s.head?, s) := rfl

theorem run_takeWhile (p : Char → Bool) (s : List Char) :
    (takeWhile p).run s = .ok (s.takeWhile p, s.dropWhile p) := rfl

theorem run_literal (cs s : List Char) : (literal cs).run (cs ++ s) = .ok ((), s) := by
  induction cs with
  | nil => rfl
  | cons c cs ih => simpa [literal, run_next?, Except.bind] using ih

theorem run_mark {s : List Char} {c : Char} (hgap : gap.all isSpace = true)
    (hc : isSpace c = false) : (mark c).run (gap ++ c :: s) = .ok ((), s) := by
  have hlit := run_literal [c] s
  simp only [mark, run_bind, run_blanks hgap hc, Except.bind]
  exact hlit

theorem run_start {s : List Char} {c : Char} (hgap : gap.all isSpace = true)
    (hc : isSpace c = false) : start.run (gap ++ c :: s) = (startFrom c).run s := by
  simp only [start, run_bind, run_blanks hgap hc, run_next?, Except.bind]

/-! ## Texts -/

theorem hexNumber?_control : ∀ n < 32,
    hexNumber? ['0', '0', hexDigit (n / 16), hexDigit (n % 16)] = some n := by
  decide

/-- The short escapes are read as what they stand for. -/
theorem run_escapedChar_short {c letter : Char} (h : shortEscape? c = some letter) (s : List Char) :
    escapedChar.run (letter :: s) = .ok (c, s) := by
  unfold shortEscape? at h
  split_ifs at h with h1 h2 h3 h4 h5 h6 h7 <;> obtain rfl := Option.some.inj h <;> subst c <;> rfl

theorem run_escapedChar_control {c : Char} (h : c.toNat < 0x20) (s : List Char) :
    escapedChar.run ('u' :: '0' :: '0' :: hexDigit (c.toNat / 16) :: hexDigit (c.toNat % 16) :: s) =
      .ok (c, s) := by
  have hunit : unit.run ('0' :: '0' :: hexDigit (c.toNat / 16) :: hexDigit (c.toNat % 16) :: s) =
      .ok (c.toNat, s) := by
    simp only [unit, hexNumber?_control c.toNat h]
  have hescaped : escaped.run
      ('u' :: '0' :: '0' :: hexDigit (c.toNat / 16) :: hexDigit (c.toNat % 16) :: s) =
      .ok (.unit c.toNat, s) := by
    simp only [escaped, run_bind, run_next?, Except.bind, hunit, run_pure]
  have htrailing : isTrailing c.toNat = false := by simp [isTrailing]; omega
  have hleading : isLeading c.toNat = false := by simp [isLeading]; omega
  simp only [escapedChar, run_bind, hescaped, Except.bind, htrailing, hleading,
    Bool.false_eq_true, if_false, run_pure, Char.ofNat_toNat]

/-- **One character of a text is read back,** escaped or not. -/
theorem quotedRun_escape (c : Char) (taken s : List Char) :
    quotedRun escapedChar taken (escape c ++ s) = quotedRun escapedChar (c :: taken) s := by
  -- both kinds of escapes start with a backslash and differ in what follows it
  have hbackslash : ∀ t u, escapedChar.run t = .ok (c, u) →
      quotedRun escapedChar taken ('\\' :: t) = quotedRun escapedChar (c :: taken) u := by
    intro t u h
    rw [quotedRun]
    simp only [Char.reduceEq, if_false, if_true]
    split
    · next hrun => simp [h] at hrun
    · next d v hrun =>
      obtain ⟨rfl, rfl⟩ : c = d ∧ u = v := by simpa [h] using hrun
      rfl
  unfold escape
  cases hshort : shortEscape? c with
  | some letter => exact hbackslash _ _ (run_escapedChar_short hshort s)
  | none =>
    by_cases hcontrol : c.toNat < 0x20
    · simp only [hcontrol, if_true]
      exact hbackslash _ _ (run_escapedChar_control hcontrol s)
    · have hquote : c ≠ '"' := by rintro rfl; simp [shortEscape?] at hshort
      have hslash : c ≠ '\\' := by rintro rfl; simp [shortEscape?] at hshort
      simp only [hcontrol, if_false, List.singleton_append]
      rw [quotedRun]
      simp [hquote, hslash, hcontrol]

theorem quotedRun_flatMap (cs taken s : List Char) :
    quotedRun escapedChar taken (cs.flatMap escape ++ '"' :: s) =
      .ok (String.ofList (taken.reverse ++ cs), s) := by
  induction cs generalizing taken with
  | nil => simp [quotedRun]
  | cons c cs ih =>
    rw [List.flatMap_cons, List.append_assoc, quotedRun_escape, ih]
    simp

/-- A quoted text is read back. -/
theorem run_text (t : String) (s : List Char) :
    text.run (t.toList.flatMap escape ++ '"' :: s) = .ok (t, s) := by
  show quotedRun escapedChar [] _ = _
  rw [quotedRun_flatMap]
  simp

/-! ## Whole numbers -/

theorem run_fraction (h : Follows rest) (cut : Fault) :
    (fraction cut).run rest = .ok ([], rest) := by
  have hpoint := h.head?_ne (c := '.') (by decide) rfl
  simp only [fraction, run_bind, run_peek?, Except.bind, run_pure]

theorem run_exponent (h : Follows rest) (cut : Fault) :
    (exponent cut).run rest = .ok (none, rest) := by
  have hlower := h.head?_ne (c := 'e') (by decide) rfl
  have hupper := h.head?_ne (c := 'E') (by decide) rfl
  simp only [exponent, run_bind, run_peek?, Except.bind, run_pure]

/-- A numeral whose whole digits are known. -/
theorem run_numeral {cut : Fault} {first : Char} {ds s : List Char} (h : Follows rest)
    (hwhole : (whole cut first).run s = .ok (ds, rest)) (hzero : ∀ d e, ds ≠ '0' :: d :: e) :
    (numeral cut first).run s =
      .ok (⟨decide (first = '-'), ds, [], none⟩, rest) := by
  simp only [numeral, run_bind, hwhole, Except.bind, run_fraction h, run_exponent h, run_pure]

theorem toDigits_ne_zero_cons (n : Nat) (d : Char) (e : List Char) :
    Nat.toDigits 10 n ≠ '0' :: d :: e := by
  intro he
  obtain ⟨c, cs, hc, hzero⟩ := Binary64.toDigits_eq_cons n
  obtain ⟨rfl, rfl⟩ : c = '0' ∧ cs = d :: e := List.cons.inj (hc.symm.trans he)
  simp at hzero

theorem opens_of_isDigit {c : Char} (h : c.isDigit = true) : Opens c := by
  refine ⟨Bool.eq_false_iff.2 fun hs => ?_, ?_, ?_⟩
  · simp only [isSpace, Bool.or_eq_true, decide_eq_true_eq] at hs
    rcases hs with ((rfl | rfl) | rfl) | rfl <;> simp at h
  · rintro rfl
    simp at h
  · rintro rfl
    simp at h

theorem run_whole_digit {cut : Fault} {d : Char} {ds : List Char} (hd : d.isDigit = true)
    (hds : ∀ c ∈ ds, c.isDigit = true) (h : Follows rest) :
    (whole cut d).run (ds ++ rest) = .ok (d :: ds, rest) := by
  have hminus : d ≠ '-' := by
    rintro rfl
    simp at hd
  simp only [whole, hminus, if_false, run_bind, run_takeWhile, Except.bind, run_pure,
    Text.takeWhile_append_ends hds h.noDigit, Text.dropWhile_append_ends hds h.noDigit]

theorem run_whole_minus {cut : Fault} {ds : List Char} (hne : ds ≠ [])
    (hds : ∀ c ∈ ds, c.isDigit = true) (h : Follows rest) :
    (whole cut '-').run (ds ++ rest) = .ok (ds, rest) := by
  simp only [whole, if_true, digits, run_bind, run_takeWhile, Except.bind,
    Text.takeWhile_append_ends hds h.noDigit, Text.dropWhile_append_ends hds h.noDigit,
    run_pure]

theorem run_number {first : Char} {ds s : List Char} {value : Int} (h : Follows rest)
    (hwhole : (whole .incomplete first).run s = .ok (ds, rest))
    (hzero : ∀ d e, ds ≠ '0' :: d :: e)
    (hint : Numeral.int? ⟨decide (first = '-'), ds, [], none⟩ = some value) :
    (number first).run s = .ok (.int value, rest) := by
  simp only [number, run_bind, run_numeral h hwhole hzero, Except.bind, Numeral.number?, hint,
    run_pure]

theorem run_startFrom_number {first : Char} {s : List Char} {value : Number}
    (hfirst : first = '-' ∨ first.isDigit = true) (h : (number first).run s = .ok (value, rest)) :
    (startFrom first).run s = .ok (.number value, rest) := by
  simp only [startFrom, hfirst, if_true, run_bind, h, Except.bind, run_pure]

/-- **Whole numbers of 64 bits are read back.** -/
theorem run_startFrom_int {value : Int} (hleast : -0x8000000000000000 ≤ value)
    (hgreatest : value < 0x10000000000000000) :
    ∃ c s, (toString value).toList = c :: s ∧ (c = '-' ∨ c.isDigit = true) ∧
      ∀ rest, Follows rest → (startFrom c).run (s ++ rest) = .ok (.number (.int value), rest) := by
  have hdigits : ∀ n, ∀ c ∈ Nat.toDigits 10 n, c.isDigit = true := fun n c =>
    Binary64.isDigit_toDigits
  cases value with
  | ofNat n =>
    obtain ⟨d, ds, hd, -⟩ := Binary64.toDigits_eq_cons n
    have hdd : d.isDigit = true := hdigits n d (by simp [hd])
    have hds : ∀ c ∈ ds, c.isDigit = true := fun c hc => hdigits n c (by simp [hd, hc])
    refine ⟨d, ds, by rw [Binary64.toList_toString_ofNat, hd], .inr hdd, fun rest h => ?_⟩
    refine run_startFrom_number (.inr hdd) (run_number h (run_whole_digit hdd hds h) ?_ ?_)
    · rw [← hd]
      exact toDigits_ne_zero_cons n
    · have hminus : d ≠ '-' := by
        rintro rfl
        simp at hdd
      have hsize : n < wordSize := Int.ofNat_lt.1 hgreatest
      simp only [Numeral.int?, ← hd, Binary64.digitsValue_toDigits]
      simp [hminus, hsize]
  | negSucc n =>
    refine ⟨'-', Nat.toDigits 10 (n + 1), Binary64.toList_toString_negSucc n, .inl rfl,
      fun rest h => ?_⟩
    refine run_startFrom_number (.inl rfl) (run_number h
      (run_whole_minus Nat.toDigits_ne_nil (hdigits (n + 1)) h) (toDigits_ne_zero_cons (n + 1)) ?_)
    have hsize : 2 * (n + 1) ≤ wordSize := by
      simp only [wordSize]
      omega
    simp only [Numeral.int?, Binary64.digitsValue_toDigits]
    simp [hsize, Int.negSucc_eq]

end Reader

/-! ## Scalars -/

open Reader

theorem reads_of_start {r : Reader α} {text : List Char} {x : α} {c : Char} {s : List Char}
    (htext : text = c :: s) (hc : Opens c)
    (h : ∀ gap rest, gap.all isSpace = true → Follows rest →
      r.run (gap ++ c :: (s ++ rest)) = .ok (x, rest)) : Reads r text x where
  opens := ⟨c, s, htext, hc⟩
  run gap rest hgap hrest := by
    rw [htext, List.append_assoc]
    exact h gap rest hgap hrest

/-- A value that starts in the expected way. -/
theorem reads_expecting {accept : Start → Option α} {text : List Char} (first : Start) {x : α}
    {c : Char} {s : List Char} (htext : text = c :: s) (hc : Opens c)
    (h : ∀ rest, Follows rest → (startFrom c).run (s ++ rest) = .ok (first, rest))
    (haccept : accept first = some x) : Reads (expecting accept) text x := by
  refine reads_of_start htext hc fun gap rest hgap hrest => ?_
  simp only [expecting, run_bind, run_start hgap hc.1, h rest hrest, Except.bind, haccept, run_pure]

theorem write_string (level : Nat) (t : String) :
    (Json.string t).write level = '"' :: (t.toList.flatMap escape ++ ['"']) := by
  simp [write, quote]

theorem reads_string (t : String) : ReadsAs .string (.string t) t := by
  intro level
  refine reads_expecting (.string t) (write_string level t) ⟨rfl, by decide, by decide⟩
    (fun rest _ => ?_) rfl
  have htext := run_text t rest
  rw [List.append_assoc, List.singleton_append]
  simp [startFrom, htext, Except.bind]

theorem reads_bool (value : Bool) : ReadsAs .bool (.bool value) value := by
  intro level
  cases value with
  | false =>
    refine reads_expecting (.bool false) (c := 'f') (s := "alse".toList) rfl
      ⟨rfl, by decide, by decide⟩ (fun rest _ => ?_) rfl
    have hlit : (literal ['a', 'l', 's', 'e']).run ('a' :: 'l' :: 's' :: 'e' :: rest) =
      .ok ((), rest) := run_literal _ rest
    simp [startFrom, hlit, Except.bind]
  | true =>
    refine reads_expecting (.bool true) (c := 't') (s := "rue".toList) rfl
      ⟨rfl, by decide, by decide⟩ (fun rest _ => ?_) rfl
    have hlit : (literal ['r', 'u', 'e']).run ('r' :: 'u' :: 'e' :: rest) = .ok ((), rest) :=
      run_literal _ rest
    simp [startFrom, hlit, Except.bind]

theorem reads_null : ReadsAs .null .null () := by
  intro level
  refine reads_expecting .null (c := 'n') (s := "ull".toList) rfl
    ⟨rfl, by decide, by decide⟩ (fun rest _ => ?_) rfl
  have hlit : (literal ['u', 'l', 'l']).run ('u' :: 'l' :: 'l' :: rest) = .ok ((), rest) :=
    run_literal _ rest
  simp [startFrom, hlit, Except.bind]

/-- A whole number between bounds of 64 bits. -/
theorem reads_int {least greatest value : Int} (hleast : least ≤ value) (hgreatest : value ≤ greatest)
    (hlow : -0x8000000000000000 ≤ least) (hhigh : greatest < 0x10000000000000000) :
    ReadsAs (.int least greatest) (.int value) value := by
  intro level
  obtain ⟨c, s, htext, hc, hrun⟩ := run_startFrom_int (hlow.trans hleast) (hgreatest.trans_lt hhigh)
  have hopens : Opens c := by
    rcases hc with rfl | hc
    · exact ⟨rfl, by decide, by decide⟩
    · exact opens_of_isDigit hc
  refine reads_expecting _ (c := c) (s := s) (by rw [write, htext]) hopens hrun ?_
  simp [hleast, hgreatest]

/-- A value from which another one is made. -/
theorem ReadsAs.map {r : Reader α} {value : Json} {x : α} (h : ReadsAs r value x) (f : α → β) :
    ReadsAs (do return f (← r)) value (f x) := fun level =>
  { opens := (h level).opens
    run := fun gap rest hgap hrest => by
      simp only [run_bind, (h level).run gap rest hgap hrest, Except.bind, run_pure] }

theorem reads_uint32 (n : UInt32) : ReadsAs .uint32 (.nat n.toNat) n := by
  have hlt := n.toNat_lt
  have hint : ReadsAs (.int 0 0xFFFFFFFF) (.int n.toNat) n.toNat :=
    reads_int (by omega) (by omega) (by decide) (by decide)
  have h := hint.map fun value => UInt32.ofNat value.toNat
  rw [Int.toNat_natCast, UInt32.ofNat_toNat] at h
  exact h

theorem reads_int32 (n : Int32) : ReadsAs .int32 (.int n.toInt) n := by
  have hint : ReadsAs (.int (-0x80000000) 0x7FFFFFFF) (.int n.toInt) n.toInt :=
    reads_int n.minValue_le_toInt n.toInt_le (by decide) (by decide)
  have h := hint.map Int32.ofInt
  rwa [Int32.ofInt_toInt] at h

theorem reads_int64 (n : Int64) : ReadsAs .int64 (.int n.toInt) n := by
  have hint : ReadsAs (.int (-0x8000000000000000) 0x7FFFFFFFFFFFFFFF) (.int n.toInt) n.toInt :=
    reads_int n.minValue_le_toInt n.toInt_le (by decide) (by decide)
  have h := hint.map Int64.ofInt
  rwa [Int64.ofInt_toInt] at h

/-- A value in the place of which null may stand. -/
theorem reads_optional {r : Reader α} {f : α → Json} {o : Option α}
    (h : ∀ x, o = some x → ReadsAs r (f x) x)
    (hnull : ∀ x level s, o = some x → (f x).write level ≠ 'n' :: s) :
    ReadsAs r.optional (.optional f o) o := by
  intro level
  cases o with
  | none =>
    refine reads_of_start (c := 'n') (s := "ull".toList) rfl ⟨rfl, by decide, by decide⟩
      fun gap rest hgap hrest => ?_
    have hrun : Reader.null.run ('n' :: ("ull".toList ++ rest)) = .ok ((), rest) :=
      (reads_null level).run [] rest rfl hrest
    simp only [Reader.optional, run_bind, run_blanks hgap (show isSpace 'n' = false from rfl),
      run_peek?, Except.bind, List.head?_cons, hrun, run_pure]
  | some x =>
    obtain ⟨c, s, htext, hc⟩ := (h x rfl level).opens
    refine reads_of_start htext hc fun gap rest hgap hrest => ?_
    have hrun := (h x rfl level).run [] rest rfl hrest
    rw [htext, List.nil_append, List.cons_append] at hrun
    have hn : c ≠ 'n' := fun he => hnull x level s rfl (he ▸ htext)
    simp only [Reader.optional, run_bind, run_blanks hgap hc.1, run_peek?, Except.bind,
      List.head?_cons]
    split
    · next he => exact absurd (Option.some.inj he) hn
    · simp only [run_bind, hrun, Except.bind, run_pure]

/-- A text behind its opening quote, and what it means. -/
theorem run_meaning {ofText? : String → Option α} {t : String} {x : α} (hgap : gap.all isSpace = true)
    (h : ofText? t = some x) (s : List Char) :
    (meaning ofText?).run (gap ++ '"' :: (t.toList.flatMap escape ++ '"' :: s)) = .ok (x, s) := by
  simp only [meaning, run_bind, run_mark hgap (show isSpace '"' = false from rfl), run_text,
    Except.bind, h, run_pure]

/-- A word is read back as what it means. -/
theorem reads_word {ofText? : String → Option α} {t : String} {x : α} (h : ofText? t = some x) :
    ReadsAs (.word ofText?) (.string t) x := by
  intro level
  refine reads_of_start (write_string level t) ⟨rfl, by decide, by decide⟩
    fun gap rest hgap hrest => ?_
  have hrun : (meaning ofText?).run ('"' :: (t.toList.flatMap escape ++ '"' :: rest)) =
      .ok (x, rest) := run_meaning (List.all_nil) h rest
  simp only [Reader.word, run_bind, run_blanks hgap (show isSpace '"' = false from rfl), run_peek?,
    Except.bind, List.head?_cons, List.append_assoc, List.singleton_append]
  exact hrun

end SparseTiling.Json
