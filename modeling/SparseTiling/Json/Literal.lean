import SparseTiling.Json.Quoted
import SparseTiling.Json.Reader

/-!
# Reading texts in JSON

A text in quotes holds no control characters. An escape with four hexadecimal digits
stands for a unit of 16 bits; two units from the surrogate ranges stand together for
one character.

* `Reader.escaped`: what stands after a backslash.
* `Reader.text`: a text, whose surrogates have to come in pairs.
* `Reader.looseText`: a text nobody asks for, whose surrogates may stand alone.
-/

namespace SparseTiling.Json

/-- The value of a hexadecimal digit. -/
def hexValue? (c : Char) : Option Nat :=
  if c.isDigit then some (c.toNat - '0'.toNat)
  else if 'a' ≤ c ∧ c ≤ 'f' then some (c.toNat - 'a'.toNat + 10)
  else if 'A' ≤ c ∧ c ≤ 'F' then some (c.toNat - 'A'.toNat + 10)
  else none

/-- The value of hexadecimal digits, the most significant first. -/
def hexNumber? (cs : List Char) : Option Nat :=
  cs.foldlM (fun n c => (hexValue? c).map (16 * n + ·)) 0

/-- What stands after a backslash: a character, or a unit of 16 bits. -/
inductive Escaped
  | char (c : Char)
  | unit (n : Nat)

/-- The first units of surrogate pairs. -/
def isLeading (n : Nat) : Bool := 0xD800 ≤ n && n ≤ 0xDBFF

/-- The second units of surrogate pairs. -/
def isTrailing (n : Nat) : Bool := 0xDC00 ≤ n && n ≤ 0xDFFF

/-- The character of a surrogate pair. -/
def pairChar (leading trailing : Nat) : Char :=
  Char.ofNat (0x10000 + (leading - 0xD800) * 0x400 + (trailing - 0xDC00))

namespace Reader

/-- Four hexadecimal digits. If less than four bytes are left, the text counts as
incomplete. -/
def unit : Reader Nat where
  run
    | a :: b :: c :: d :: s =>
      match hexNumber? [a, b, c, d] with
      | some n => .ok (n, s)
      | none => .error .malformed
    | s => if s.foldl (fun n c => n + c.utf8Size) 0 < 4 then .error .incomplete else .error .malformed
  run_le {s n t} h := by
    split at h
    · split at h
      · obtain ⟨-, rfl⟩ : _ ∧ _ = t := by simpa using h
        simp only [List.length_cons]
        omega
      · simp at h
    · split at h <;> simp at h

/-- What stands after a backslash. -/
def escaped : Reader Escaped := do
  match ← next? with
  | none => fail .incomplete
  | some 'u' => return .unit (← unit)
  | some letter =>
    match shortEscaped? letter with
    | some c => return .char c
    | none => fail .malformed

/-- An escaped character; surrogates come in pairs. -/
def escapedChar : Reader Char := do
  match ← escaped with
  | .char c => return c
  | .unit n =>
    if isTrailing n then fail .malformed
    else if isLeading n then
      literal ['\\', 'u']
      let m ← unit
      if isTrailing m then return pairChar n m else fail .malformed
    else return Char.ofNat n

/-- An escape nobody asks for; any unit will do. -/
def looseChar : Reader Char := do
  match ← escaped with
  | .char c => return c
  | .unit n => return Char.ofNat n

/-- The characters up to the closing quote, after those in `taken`, which are in
reverse. -/
def quotedRun (escape : Reader Char) (taken : List Char) :
    List Char → Except Fault (String × List Char)
  | [] => .error .incomplete
  | c :: s =>
    if c = '"' then .ok (String.ofList taken.reverse, s)
    else if c = '\\' then
      match _ : escape.run s with
      | .error fault => .error fault
      | .ok (d, t) => quotedRun escape (d :: taken) t
    else if c.toNat < 0x20 then .error .malformed
    else quotedRun escape (c :: taken) s
termination_by s => s.length
decreasing_by
  · have := escape.run_le ‹_›
    simp only [List.length_cons]
    omega
  · simp

theorem quotedRun_le (escape : Reader Char) (taken s : List Char) {text : String}
    {t : List Char} (h : quotedRun escape taken s = .ok (text, t)) : t.length ≤ s.length := by
  fun_induction quotedRun escape taken s with
  | case1 => simp at h
  | case2 taken s =>
    obtain ⟨-, rfl⟩ : _ ∧ s = t := by simpa using h
    simp
  | case3 => simp at h
  | case4 taken s d u hd _ ih =>
    have := ih h
    have := escape.run_le hd
    simp only [List.length_cons]
    omega
  | case5 => simp at h
  | case6 taken c s _ _ _ ih =>
    have := ih h
    simp only [List.length_cons]
    omega

/-- A text up to its closing quote; the opening quote has been read. -/
def quoted (escape : Reader Char) : Reader String where
  run s := quotedRun escape [] s
  run_le h := quotedRun_le escape [] _ h

/-- **A text** up to its closing quote. -/
def text : Reader String := quoted escapedChar

/-- A text nobody asks for, up to its closing quote. -/
def looseText : Reader String := quoted looseChar

end Reader

end SparseTiling.Json
