import WorkflowStudio.Decimal.Layout

/-!
Numbers with a given count of digits, rounded to even on a tie. A number is
written with fixed places, with an exponent, or in the shorter of the two forms
for its size.
-/
namespace WorkflowStudio.Decimal

/-- The magnitude times a power of ten, rounded to a whole number. -/
def scaledMagnitude (x : Double) (power : Int) : Nat :=
  Double.roundQuotient (x.mantissa * Nat.pow 2 x.exponent.toNat * Nat.pow 10 power.toNat)
    (Nat.pow 2 (-x.exponent).toNat * Nat.pow 10 (-power).toNat)

/-- A point, also before no digits when it is asked for. -/
def fraction (pointKept : Bool) (digits : List Char) : List Char :=
  if digits.isEmpty && !pointKept then [] else '.' :: digits

def fixedPlaces (places : Nat) (pointKept : Bool) (x : Double) : List Char :=
  let digits := padLeft (places + 1) (toString (scaledMagnitude x places)).toList
  let whole := digits.length - places
  digits.take whole ++ fraction pointKept (digits.drop whole)

/-- The given number of digits above zero, and the exponent of the first one. -/
def significant (count : Nat) (x : Double) : List Char × Int :=
  if x.isZero then (List.replicate count '0', 0)
  else
    let lead :=
      leadingPower (x.mantissa * Nat.pow 2 x.exponent.toNat) (Nat.pow 2 (-x.exponent).toNat)
    let n := scaledMagnitude x (count - 1 - lead)
    if Nat.pow 10 count ≤ n then ((toString (n / 10)).toList, lead + 1)
    else ((toString n).toList, lead)

def withExponent (mark : Char) (pointKept : Bool) (digits : List Char) (power : Int) : List Char :=
  digits.take 1 ++ fraction pointKept (digits.drop 1) ++
    mark :: (if power < 0 then '-' else '+') :: padLeft 2 (toString power.natAbs).toList

def exponentPlaces (places : Nat) (pointKept : Bool) (x : Double) : List Char :=
  let (digits, power) := significant (places + 1) x
  withExponent 'e' pointKept digits power

def dropEndZeros (digits : List Char) : List Char :=
  (digits.reverse.dropWhile (· == '0')).reverse

/-- Zeros at the end of the fraction are dropped unless the point is kept. -/
def generalPlaces (places : Nat) (pointKept : Bool) (x : Double) : List Char :=
  let count := max places 1
  let (digits, power) := significant count x
  let trim (cs : List Char) := if pointKept then cs else dropEndZeros cs
  if power < -4 ∨ count ≤ power then
    withExponent 'e' pointKept (digits.take 1 ++ trim (digits.drop 1)) power
  else if power < 0 then
    '0' :: fraction pointKept (trim (List.replicate (-power - 1).toNat '0' ++ digits))
  else
    digits.take (power.toNat + 1) ++ fraction pointKept (trim (digits.drop (power.toNat + 1)))

end WorkflowStudio.Decimal
