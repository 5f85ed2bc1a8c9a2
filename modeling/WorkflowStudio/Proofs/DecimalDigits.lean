import Mathlib.Data.List.TakeDrop
import Mathlib.Tactic.Ring
import WorkflowStudio.Decimal.Numeral

/-!
Digits of whole numbers. The digits that a number is written in are read back as the number,
the first of them is no zero unless it is the only one, and zeros around digits multiply by
powers of ten.
-/
namespace WorkflowStudio.Numeral

/-- The digits of a whole number. -/
def wholeDigits (n : Nat) : List Char := (toString n).toList

theorem wholeDigits_eq (n : Nat) : wholeDigits n = Nat.toDigits 10 n := by
  rw [wholeDigits, Nat.toString_eq_ofList_toDigits, String.toList_ofList]

theorem plainValue_eq_ofDigitChars (cs : List Char) :
    plainValue cs = Nat.ofDigitChars 10 cs 0 := by
  have hstep : (fun (value : Nat) (c : Char) => value * 10 + (c.toNat - '0'.toNat)) =
      fun value c => 10 * value + (c.toNat - '0'.toNat) := by
    funext value c
    rw [Nat.mul_comm]
  rw [plainValue, hstep, Nat.ofDigitChars_eq_foldl]

@[simp] theorem plainValue_wholeDigits (n : Nat) : plainValue (wholeDigits n) = n := by
  rw [wholeDigits_eq, plainValue_eq_ofDigitChars, Nat.ofDigitChars_ten_toDigits]

theorem plainValue_append (cs ds : List Char) :
    plainValue (cs ++ ds) = plainValue cs * 10 ^ ds.length + plainValue ds := by
  simp only [plainValue_eq_ofDigitChars]
  rw [Nat.ofDigitChars_append, Nat.ofDigitChars_eq_ofDigitChars_zero, Nat.mul_comm]

@[simp] theorem plainValue_zeros (k : Nat) : plainValue (List.replicate k '0') = 0 := by
  rw [plainValue_eq_ofDigitChars, Nat.ofDigitChars_replicate_zero, Nat.mul_zero]

theorem plainValue_zeros_append (k : Nat) (cs : List Char) :
    plainValue (List.replicate k '0' ++ cs) = plainValue cs := by
  rw [plainValue_append, plainValue_zeros, Nat.zero_mul, Nat.zero_add]

theorem plainValue_append_zeros (cs : List Char) (k : Nat) :
    plainValue (cs ++ List.replicate k '0') = plainValue cs * 10 ^ k := by
  rw [plainValue_append, plainValue_zeros, Nat.add_zero, List.length_replicate]

theorem isPlainDigit_of_mem_wholeDigits {n : Nat} {c : Char} (h : c ∈ wholeDigits n) :
    isPlainDigit c = true := by
  rw [wholeDigits_eq] at h
  have hdigit := Nat.isDigit_of_mem_toDigits (by decide) (by decide) h
  exact hdigit

@[simp] theorem wholeDigits_ne_nil (n : Nat) : wholeDigits n ≠ [] := by
  rw [wholeDigits_eq]
  exact Nat.toDigits_ne_nil

theorem wholeDigits_of_lt_ten {n : Nat} (h : n < 10) : wholeDigits n = [n.digitChar] := by
  rw [wholeDigits_eq, Nat.toDigits_of_lt_base h]

theorem wholeDigits_of_ten_le {n : Nat} (h : 10 ≤ n) :
    wholeDigits n = wholeDigits (n / 10) ++ [(n % 10).digitChar] := by
  rw [wholeDigits_eq, wholeDigits_eq, Nat.toDigits_of_base_le (by decide) h]

/-- A number with a zero in front has no other digits. -/
theorem head?_wholeDigits {n : Nat} (h : 0 < n) : (wholeDigits n).head? ≠ some '0' := by
  induction n using Nat.strong_induction_on with
  | _ n ih =>
    by_cases hlt : n < 10
    · rw [wholeDigits_of_lt_ten hlt]
      intro hhead
      have hdigit : n.digitChar = '0' := by simpa using hhead
      rw [Nat.digitChar_eq_zero] at hdigit
      omega
    · have hsmaller := ih (n / 10) (by omega) (by omega)
      have hfirst := List.head?_eq_some_head (wholeDigits_ne_nil (n / 10))
      rw [wholeDigits_of_ten_le (by omega), List.head?_append, hfirst, Option.some_or, ← hfirst]
      exact hsmaller

theorem length_wholeDigits_le_iff {n k : Nat} (h : 0 < k) :
    (wholeDigits n).length ≤ k ↔ n < 10 ^ k := by
  rw [wholeDigits_eq]
  exact Nat.length_toDigits_le_iff (by decide) h

/-- Whether a text does not go on with a digit. -/
def EndsDigits (rest : List Char) : Prop := ∀ c, rest.head? = some c → isPlainDigit c = false

theorem span_digits {digits rest : List Char} (hdigits : ∀ c ∈ digits, isPlainDigit c = true)
    (hrest : EndsDigits rest) : (digits ++ rest).span isPlainDigit = (digits, rest) := by
  have htake : rest.takeWhile isPlainDigit = [] := by
    cases rest with
    | nil => rfl
    | cons c rest => rw [List.takeWhile_cons, hrest c rfl]; rfl
  have hdrop : rest.dropWhile isPlainDigit = rest := by
    cases rest with
    | nil => rfl
    | cons c rest => rw [List.dropWhile_cons, hrest c rfl]; rfl
  rw [List.span_eq_takeWhile_dropWhile, List.takeWhile_append_of_pos hdigits,
    List.dropWhile_append_of_pos hdigits, htake, hdrop, List.append_nil]

end WorkflowStudio.Numeral
