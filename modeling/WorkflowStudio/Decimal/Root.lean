import WorkflowStudio.Decimal.Double

/-!
Square roots of whole numbers and of doubles.
-/
namespace WorkflowStudio

/-- Adds to a root each of the lower powers of two that keeps its square in
bounds. -/
def refineRoot (n : Nat) : Nat → Nat → Nat
  | 0, root => root
  | bit + 1, root =>
      if (root + Nat.pow 2 bit) * (root + Nat.pow 2 bit) ≤ n then
        refineRoot n bit (root + Nat.pow 2 bit)
      else refineRoot n bit root

/-- The square root of a whole number, rounded down. -/
def wholeRoot (n : Nat) : Nat := refineRoot n (Nat.log2 n / 2 + 1) 0

theorem refineRoot_sq_le {n : Nat} (bits : Nat) {root : Nat} (h : root * root ≤ n) :
    refineRoot n bits root * refineRoot n bits root ≤ n := by
  induction bits generalizing root with
  | zero => exact h
  | succ bit ih =>
    simp only [refineRoot]
    split
    · next hbit => exact ih hbit
    · exact ih h

theorem wholeRoot_sq_le (n : Nat) : wholeRoot n * wholeRoot n ≤ n :=
  refineRoot_sq_le _ (Nat.zero_le n)

namespace Double

/-- The nearest double to the square root of a positive finite number. The root
is taken of the scaled mantissa, and a last bit records whether it is exact. -/
def sqrt (x : Double) : Double :=
  let odd := x.exponent % 2
  let scaled := x.mantissa * Nat.pow 2 (odd + 128).toNat
  let root := wholeRoot scaled
  ofScaled false (2 * root + (if root * root = scaled then 0 else 1)) ((x.exponent - odd) / 2 - 65)

end Double
end WorkflowStudio
