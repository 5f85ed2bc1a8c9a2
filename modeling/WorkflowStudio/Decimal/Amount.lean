import WorkflowStudio.Decimal.Double

/-!
Amounts: whole numbers of any size and real numbers, compared by what they
amount to.
-/
namespace WorkflowStudio

inductive Amount where
  | whole (n : Int)
  | real (x : Double)
deriving DecidableEq

namespace Amount

def equal : Amount → Amount → Bool
  | .whole m, .whole n => m == n
  | .whole m, .real x => x.equalInt m
  | .real x, .whole n => x.equalInt n
  | .real x, .real y => x.equal y

/-- The numeric order. A NaN is below nothing. -/
def le : Amount → Amount → Bool
  | .whole m, .whole n => m ≤ n
  | .real x, .real y => x.le y
  | .whole m, .real y => !y.isNaN && (if y.isFinite then m ≤ y.floor else !y.isNegative)
  | .real x, .whole n => !x.isNaN && (if x.isFinite then x.ceil ≤ n else x.isNegative)

end Amount
end WorkflowStudio
