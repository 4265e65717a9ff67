import Mathlib.Tactic
import SparseTiling.Code.Print

/-!
# String literals read back

A literal is read by the rules of C: a backslash starts an escape, which is one of the
short ones or an octal number of at most three digits, and the literal ends at the first
quote that is not part of an escape.

An octal escape ends where no digit follows or where it has three digits. The escapes that
are written always have three, so what follows them does not matter.

* `Literal.read`: the reader.
* `Literal.readFrom_escape`: the spelling of a character is read as that character.
* `Literal.read_quote`: a literal is read to its end, as the text it stands for.
* `Literal.read_eq_none_of_append`: it cannot be read to an earlier end.
* `Literal.printable_of_mem_quote`: a literal holds no control character.
-/

namespace SparseTiling.Code.Literal

/-! ## The reader -/

/-- Where the reader of a literal stands: in the text, with the digits and the number of an
octal escape that may go on; or right after a backslash. -/
inductive Scan
  | text (octal : Option (Nat × Nat))
  | escape

/-- The character of a short escape. -/
def short? : Char → Option Char
  | '"' => some '"'
  | '\\' => some '\\'
  | 'n' => some '\n'
  | 't' => some '\t'
  | 'r' => some '\r'
  | _ => none

/-- The value of an octal digit. -/
def octal? (c : Char) : Option Nat :=
  if '0'.toNat ≤ c.toNat ∧ c.toNat ≤ '7'.toNat then some (c.toNat - '0'.toNat) else none

/-- An octal escape with one more digit; three are the most. -/
def goOn? : Option (Nat × Nat) → Char → Option (Nat × Nat)
  | some (digits, value), c =>
    if digits < 3 then (octal? c).map fun d => (digits + 1, 8 * value + d) else none
  | none, _ => none

/-- One more character in front of what was read. -/
def keep (c : Char) (r : Option (List Char × List Char)) : Option (List Char × List Char) :=
  r.map fun p => (c :: p.1, p.2)

/-- The character of an octal escape that has come to its end. -/
def finish : Option (Nat × Nat) → Option (List Char × List Char) → Option (List Char × List Char)
  | some (_, value), r => keep (Char.ofNat value) r
  | none, r => r

/-- Read the inside of a literal: its characters, and what follows the closing quote. -/
def readFrom : Scan → List Char → Option (List Char × List Char)
  | _, [] => none
  | .escape, c :: s =>
    match short? c with
    | some d => keep d (readFrom (.text none) s)
    | none => (octal? c).bind fun d => readFrom (.text (some (1, d))) s
  | .text octal, c :: s =>
    match goOn? octal c with
    | some more => readFrom (.text (some more)) s
    | none =>
      finish octal <|
        if c = '"' then some ([], s)
        else if c = '\\' then readFrom .escape s
        else if c = '\n' then none
        else keep c (readFrom (.text none) s)

/-- Read a literal from its opening quote on. -/
def read : List Char → Option (String × List Char)
  | '"' :: s => (readFrom (.text none) s).map fun p => (String.ofList p.1, p.2)
  | _ => none

-- The equations of a recursive definition are proved when a simp set first takes it in. Proofs run
-- side by side and would each prove those of the reader again, so it is taken in once before them. The
-- attribute ends with the section: no later proof unfolds the reader unless it says so.
section Equations

attribute [local simp] readFrom

end Equations

/-! ## What is written -/

variable {c : Char} {s : List Char}

theorem octal?_octalDigit (n : Nat) : octal? (octalDigit n) = some (n % 8) := by
  have hdigits : ∀ k : Fin 8, octal? (Char.ofNat ('0'.toNat + k)) = some k.val := by decide
  exact hdigits ⟨n % 8, Nat.mod_lt _ (by omega)⟩

theorem short?_octalDigit (n : Nat) : short? (octalDigit n) = none := by
  have hdigits : ∀ k : Fin 8, short? (Char.ofNat ('0'.toNat + k)) = none := by decide
  exact hdigits ⟨n % 8, Nat.mod_lt _ (by omega)⟩

/-- A character that stands for itself. -/
theorem readFrom_self (hquote : c ≠ '"') (hslash : c ≠ '\\') (hline : c ≠ '\n') :
    readFrom (.text none) (c :: s) = keep c (readFrom (.text none) s) := by
  simp [readFrom, goOn?, finish, hquote, hslash, hline]

theorem readFrom_short {d : Char} (h : short? d = some c) :
    readFrom (.text none) ('\\' :: d :: s) = keep c (readFrom (.text none) s) := by
  simp [readFrom, goOn?, finish, h]

/-- After three digits an octal escape is at its end, whatever follows. -/
theorem readFrom_three (value : Nat) (hs : s ≠ []) :
    readFrom (.text (some (3, value))) s = keep (Char.ofNat value) (readFrom (.text none) s) := by
  obtain ⟨d, t, rfl⟩ := List.exists_cons_of_ne_nil hs
  simp [readFrom, goOn?, finish]

theorem readFrom_octal (n : Nat) (hn : n < 512) (hs : s ≠ []) :
    readFrom (.text none)
        ('\\' :: octalDigit (n / 64) :: octalDigit (n / 8) :: octalDigit n :: s) =
      keep (Char.ofNat n) (readFrom (.text none) s) := by
  have hvalue : 8 * (8 * (n / 64 % 8) + n / 8 % 8) + n % 8 = n := by omega
  rw [← readFrom_three n hs]
  simp [readFrom, goOn?, finish, short?_octalDigit, octal?_octalDigit, hvalue]

/-- **The spelling of a character is read as that character,** if anything follows. -/
theorem readFrom_escape (c : Char) (hs : s ≠ []) :
    readFrom (.text none) (escape c ++ s) = keep c (readFrom (.text none) s) := by
  unfold escape
  split_ifs with hquote hslash hline htab hreturn hcontrol
  · exact readFrom_short (by rw [hquote]; rfl)
  · exact readFrom_short (by rw [hslash]; rfl)
  · exact readFrom_short (by rw [hline]; rfl)
  · exact readFrom_short (by rw [htab]; rfl)
  · exact readFrom_short (by rw [hreturn]; rfl)
  · simpa using readFrom_octal c.toNat (by omega) hs
  · exact readFrom_self hquote hslash hline

theorem readFrom_flatMap (cs : List Char) (rest : List Char) :
    readFrom (.text none) (cs.flatMap escape ++ '"' :: rest) = some (cs, rest) := by
  induction cs with
  | nil => simp [readFrom, goOn?, finish]
  | cons c cs ih =>
    rw [List.flatMap_cons, List.append_assoc, readFrom_escape c (by simp), ih]
    rfl

/-- **A literal is read to its end,** as the text that it stands for. -/
theorem read_quote (text : String) (rest : List Char) :
    read ((quote text).toList ++ rest) = some (text, rest) := by
  simp [quote, quoteChars, read, readFrom_flatMap]

theorem quote_injective : Function.Injective quote := by
  intro text text' h
  have hread := read_quote text []
  rw [h, read_quote text' []] at hread
  exact (congrArg Prod.fst (Option.some.inj hread)).symm

/-! ## What follows -/

/-- What is read up to its end is read alike if more follows. -/
theorem readFrom_append {scan : Scan} {cs rest : List Char} (t : List Char)
    (h : readFrom scan s = some (cs, rest)) : readFrom scan (s ++ t) = some (cs, rest ++ t) := by
  -- characters in front of what was read do not matter
  have hkeep {c : Char} {r r' : Option (List Char × List Char)} {cs : List Char}
      (hr : ∀ ds, r = some (ds, rest) → r' = some (ds, rest ++ t))
      (hc : keep c r = some (cs, rest)) : keep c r' = some (cs, rest ++ t) := by
    obtain ⟨⟨ds, u⟩, hds, he⟩ := Option.map_eq_some_iff.1 hc
    obtain ⟨rfl, rfl⟩ := Prod.mk.inj he
    rw [hr ds hds]
    rfl
  have hfinish {octal : Option (Nat × Nat)} {r r' : Option (List Char × List Char)}
      {cs : List Char} (hr : ∀ ds, r = some (ds, rest) → r' = some (ds, rest ++ t))
      (hc : finish octal r = some (cs, rest)) : finish octal r' = some (cs, rest ++ t) := by
    cases octal with
    | none => exact hr cs hc
    | some p => exact hkeep hr hc
  fun_induction readFrom scan s generalizing cs with
  | case1 => cases h
  | case2 c s d hshort ih =>
    rw [List.cons_append, readFrom, hshort]
    exact hkeep (fun ds hds => ih hds) h
  | case3 c s hshort ih =>
    obtain ⟨d, hd, hrest⟩ := Option.bind_eq_some_iff.1 h
    rw [List.cons_append, readFrom, hshort, hd]
    exact ih d hrest
  | case4 octal c s more hmore ih =>
    rw [List.cons_append, readFrom, hmore]
    exact ih h
  | case5 octal c s hmore ihescape ihtext =>
    rw [List.cons_append, readFrom, hmore]
    refine hfinish (fun ds hds => ?_) h
    split_ifs at hds ⊢ with hquote hslash hline
    · obtain ⟨rfl, rfl⟩ := Prod.mk.inj (Option.some.inj hds)
      rfl
    · exact ihescape hds
    · exact hkeep (fun es hes => ihtext hes) hds

theorem read_append {rest : List Char} {text : String} (t : List Char)
    (h : read s = some (text, rest)) : read (s ++ t) = some (text, rest ++ t) := by
  unfold read at h
  split at h
  · next s =>
    obtain ⟨⟨cs, r⟩, hread, he⟩ := Option.map_eq_some_iff.1 h
    obtain ⟨rfl, rfl⟩ := Prod.mk.inj he
    rw [List.cons_append, read, readFrom_append t hread]
    rfl
  · cases h

/-- **A literal does not end early:** no part in front of its last quote is a literal. -/
theorem read_eq_none_of_append {text : String} {front back : List Char}
    (h : (quote text).toList = front ++ back) (hback : back ≠ []) : read front = none := by
  cases hread : read front with
  | none => rfl
  | some p =>
    have hwhole := read_quote text []
    rw [List.append_nil, h, read_append back hread] at hwhole
    have hrest : p.2 ++ back = [] := congrArg Prod.snd (Option.some.inj hwhole)
    exact absurd (List.append_eq_nil_iff.1 hrest).2 hback

/-! ## Printable characters -/

/-- A character that is not an ASCII control character. -/
def Printable (c : Char) : Prop := 0x20 ≤ c.toNat ∧ c.toNat ≠ 0x7F

theorem printable_octalDigit (n : Nat) : Printable (octalDigit n) := by
  have hdigits : ∀ k : Fin 8, 0x20 ≤ (Char.ofNat ('0'.toNat + k)).toNat ∧
      (Char.ofNat ('0'.toNat + k)).toNat ≠ 0x7F := by decide
  exact hdigits ⟨n % 8, Nat.mod_lt _ (by omega)⟩

theorem printable_of_mem_escape {c d : Char} (h : d ∈ escape c) : Printable d := by
  have hascii : ∀ x ∈ ['\\', '"', 'n', 't', 'r'], Printable x := by
    simp only [List.mem_cons, List.not_mem_nil, or_false, forall_eq_or_imp, forall_eq]
    simp only [Printable]
    decide
  unfold escape at h
  split_ifs at h with hquote hslash hline htab hreturn hcontrol
  iterate 5
    simp only [List.mem_cons, List.not_mem_nil, or_false] at h
    rcases h with rfl | rfl <;> exact hascii _ (by simp)
  · simp only [List.mem_cons, List.not_mem_nil, or_false] at h
    rcases h with rfl | rfl | rfl | rfl
    · exact hascii _ (by simp)
    all_goals exact printable_octalDigit _
  · obtain rfl : d = c := by simpa using h
    exact ⟨by omega, fun h => hcontrol (.inr h)⟩

/-- **A literal holds no control character,** so it never runs over a line. -/
theorem printable_of_mem_quote {text : String} {c : Char} (h : c ∈ (quote text).toList) :
    Printable c := by
  simp only [quote, quoteChars, String.toList_ofList, List.cons_append, List.mem_cons,
    List.mem_append, List.mem_flatMap, List.not_mem_nil, or_false] at h
  rcases h with rfl | ⟨d, -, hd⟩ | rfl
  · exact ⟨by decide, by decide⟩
  · exact printable_of_mem_escape hd
  · exact ⟨by decide, by decide⟩

end SparseTiling.Code.Literal
