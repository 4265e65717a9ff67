import SparseTiling.Json.Literal
import SparseTiling.Json.Numeral

/-!
# Passing over values

A value nobody asks for is passed over. It has to be JSON, but its numbers may be of
any size and its texts may hold lone surrogates. Brackets nest to any depth: those
that are open are kept on a stack.

* `Reader.skip`: a value that is passed over.
-/

namespace SparseTiling.Json

/-- The brackets of lists and records. -/
inductive Bracket
  | square
  | curly
  deriving DecidableEq

def Bracket.close : Bracket → Char
  | .square => ']'
  | .curly => '\x7d'

/-- What is expected next while a value is passed over. -/
inductive Expectation
  /-- A value. -/
  | value
  /-- The first item or the end of the innermost brackets. -/
  | first
  /-- A further item or the end of the innermost brackets. -/
  | further
  deriving DecidableEq

namespace Reader

/-- The rest of a value without brackets; nothing of a value with brackets, but which
they are. -/
def skipFrom (first : Char) : Reader (Option Bracket) := do
  if first = '-' ∨ first.isDigit then
    let _ ← numeral .malformed first
    return none
  else
    match first with
    | 'n' =>
      literal "ull".toList
      return none
    | 't' =>
      literal "rue".toList
      return none
    | 'f' =>
      literal "alse".toList
      return none
    | '"' =>
      let _ ← looseText
      return none
    | '[' => return some .square
    | '\x7b' => return some .curly
    | _ => fail .malformed

/-- What comes before the value of an item: in a record its key. -/
def skipKey : Bracket → Reader Unit
  | .square => pure ()
  | .curly => do
    mark '"'
    let _ ← looseText
    mark ':'

/-- Passes over values until the brackets in `stack` are closed, the innermost of
them first. -/
def skipRun (expected : Expectation) (stack : List Bracket) (s : List Char) :
    Except Fault (Unit × List Char) :=
  match expected, stack with
  | .value, stack =>
    match _ : s.dropWhile isSpace with
    | [] => .error .incomplete
    | c :: t =>
      match _ : (skipFrom c).run t with
      | .error fault => .error fault
      | .ok (none, u) => skipRun .further stack u
      | .ok (some bracket, u) => skipRun .first (bracket :: stack) u
  | _, [] => .ok ((), s)
  | .first, bracket :: outer =>
    match _ : s.dropWhile isSpace with
    | [] => .error .incomplete
    | c :: t =>
      if c = bracket.close then skipRun .further outer t
      else
        match _ : (skipKey bracket).run (c :: t) with
        | .error fault => .error fault
        | .ok ((), u) => skipRun .value (bracket :: outer) u
  | .further, bracket :: outer =>
    match _ : s.dropWhile isSpace with
    | [] => .error .incomplete
    | c :: t =>
      if c = bracket.close then skipRun .further outer t
      else if c = ',' then
        match _ : (skipKey bracket).run t with
        | .error fault => .error fault
        | .ok ((), u) => skipRun .value (bracket :: outer) u
      else .error .malformed
termination_by 2 * s.length + if expected = .first then 1 else 0
decreasing_by
  all_goals have hlt := length_lt_of_dropWhile ‹_›
  · have := (skipFrom c).run_le ‹_›
    simp
    omega
  · have := (skipFrom c).run_le ‹_›
    simp
    omega
  · simp
    omega
  · have := (skipKey bracket).run_le ‹_›
    simp at *
    omega
  · simp
    omega
  · have := (skipKey bracket).run_le ‹_›
    simp
    omega

theorem skipRun_le (expected : Expectation) (stack : List Bracket) (s : List Char)
    {t : List Char} (h : skipRun expected stack s = .ok ((), t)) : t.length ≤ s.length := by
  fun_induction skipRun expected stack s with
  | case1 | case2 | case6 | case8 | case10 | case12 | case14 => simp at h
  | case3 _ _ c _ hdrop _ hrun ih | case4 _ _ c _ hdrop _ _ hrun ih =>
    have := ih h
    have := length_lt_of_dropWhile hdrop
    have := (skipFrom c).run_le hrun
    omega
  | case5 => simp_all
  | case7 _ _ _ _ hdrop ih | case11 _ _ _ _ hdrop ih =>
    have := ih h
    have := length_lt_of_dropWhile hdrop
    omega
  | case9 _ bracket _ c _ hdrop _ _ hrun ih =>
    have := ih h
    have := length_lt_of_dropWhile hdrop
    have := (skipKey bracket).run_le hrun
    simp only [List.length_cons] at this
    omega
  | case13 _ bracket _ _ _ hrun hdrop _ ih =>
    have := ih h
    have := length_lt_of_dropWhile hdrop
    have := (skipKey bracket).run_le hrun
    omega

/-- **A value nobody asks for.** -/
def skip : Reader Unit where
  run s := skipRun .value [] s
  run_le h := skipRun_le .value [] _ h

end Reader

end SparseTiling.Json
