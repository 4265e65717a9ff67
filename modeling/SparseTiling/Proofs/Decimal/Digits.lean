import Mathlib.Tactic
import SparseTiling.Decimal.Read

/-!
# Digits of whole numbers

How a whole number is spelled: a minus if it is negative, and digits without a leading
zero, from which the number can be read again.

* `digitsValue_toDigits`: the digits spell the number.
* `toDigits_eq_cons`: they start with zero only for zero itself.
* `takeWhile_append_ends`, `dropWhile_append_ends`: digits, or the characters of a word, end
  where no more of them follow.
-/

namespace SparseTiling.Binary64

theorem digitsValue_toDigits (n : Nat) : digitsValue (Nat.toDigits 10 n) = n :=
  Nat.ofDigitChars_toDigits (by omega) (by omega)

theorem isDigit_toDigits {n : Nat} {c : Char} (h : c ∈ Nat.toDigits 10 n) : c.isDigit = true :=
  Nat.isDigit_of_mem_toDigits (by omega) (by omega) h

/-- Only zero itself starts with zero. -/
theorem toDigits_eq_cons (n : Nat) :
    ∃ d ds, Nat.toDigits 10 n = d :: ds ∧ (d = '0' → ds = [] ∧ n = 0) := by
  induction n using Nat.strong_induction_on with
  | _ n ih =>
    rw [Nat.toDigits_eq_if (by omega)]
    by_cases hn : n < 10
    · have hzero : ∀ k < 10, Nat.digitChar k = '0' → k = 0 := by decide
      exact ⟨n.digitChar, [], if_pos hn, fun h => ⟨rfl, hzero n hn h⟩⟩
    · obtain ⟨d, ds, hd, hzero⟩ := ih (n / 10) (by omega)
      refine ⟨d, ds ++ [(n % 10).digitChar], by rw [if_neg hn, hd]; rfl, fun h => ?_⟩
      have := (hzero h).2
      omega

theorem toList_toString_nat (n : Nat) : (toString n).toList = Nat.toDigits 10 n := by
  rw [Nat.toString_eq_ofList_toDigits, String.toList_ofList]

theorem toList_toString_ofNat (n : Nat) : (toString (Int.ofNat n)).toList = Nat.toDigits 10 n :=
  toList_toString_nat n

theorem toList_toString_negSucc (n : Nat) :
    (toString (Int.negSucc n)).toList = '-' :: Nat.toDigits 10 (n + 1) := by
  have htext : toString (Int.negSucc n) = "-" ++ toString (n + 1) := rfl
  rw [htext, String.toList_append, toList_toString_nat]
  rfl

end SparseTiling.Binary64

/-! ## Where a run of characters ends -/

namespace SparseTiling.Text

variable {p : Char → Bool} {run rest : List Char}

/-- What follows a run of characters does not go on with it. -/
def Ends (p : Char → Bool) (rest : List Char) : Prop := ∀ c s, rest = c :: s → p c = false

theorem takeWhile_append_ends (hrun : ∀ c ∈ run, p c = true) (hrest : Ends p rest) :
    (run ++ rest).takeWhile p = run := by
  rw [List.takeWhile_append_of_pos hrun]
  cases rest with
  | nil => simp
  | cons c s => simp [hrest c s rfl]

theorem dropWhile_append_ends (hrun : ∀ c ∈ run, p c = true) (hrest : Ends p rest) :
    (run ++ rest).dropWhile p = rest := by
  rw [List.dropWhile_append_of_pos hrun]
  cases rest with
  | nil => rfl
  | cons c s => simp [hrest c s rfl]

end SparseTiling.Text
