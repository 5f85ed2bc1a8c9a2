/-!
Double precision numbers by their bits. A finite number is a whole mantissa
times a power of two, so sums, products and comparisons are computed exactly on
whole numbers and rounded once, to the nearest number and to even on a tie.
-/
namespace WorkflowStudio

structure Double where
  bits : UInt64
deriving DecidableEq, Repr, Inhabited

namespace Double

def signWeight : Nat := 0x8000000000000000

/-- The leading bit of a mantissa, which is not stored. -/
def hiddenBit : Nat := 0x10000000000000

/-- The magnitude of infinity; every larger magnitude is not a number. -/
def infinityBits : Nat := 0x7ff0000000000000

def ofSigned (negative : Bool) (magnitude : Nat) : Double :=
  ⟨UInt64.ofNat (magnitude + if negative then signWeight else 0)⟩

def infinity (negative : Bool) : Double := ofSigned negative infinityBits

def nan : Double := ⟨0x7ff8000000000000⟩

def half : Double := ⟨0x3fe0000000000000⟩

def zero (negative : Bool) : Double := ofSigned negative 0

def isNegative (x : Double) : Bool := signWeight ≤ x.bits.toNat

def magnitude (x : Double) : Nat := x.bits.toNat % signWeight

def isFinite (x : Double) : Bool := x.magnitude < infinityBits

def isNaN (x : Double) : Bool := infinityBits < x.magnitude

def isZero (x : Double) : Bool := x.magnitude = 0

def biasedExponent (x : Double) : Nat := x.magnitude / hiddenBit

/-- The mantissa of a finite number as a whole number. -/
def mantissa (x : Double) : Nat :=
  if x.biasedExponent = 0 then x.magnitude else x.magnitude % hiddenBit + hiddenBit

/-- The power of two that the mantissa of a finite number is multiplied by. -/
def exponent (x : Double) : Int := (max x.biasedExponent 1 : Nat) - 1075

/-- Rounds a quotient of whole numbers to a whole number, to even on a tie. -/
def roundQuotient (num den : Nat) : Nat :=
  let quotient := num / den
  let remainder := num % den
  if den < 2 * remainder ∨ (den = 2 * remainder ∧ quotient % 2 = 1) then quotient + 1
  else quotient

/-- The exponent of the leading bit of a positive quotient. -/
def leadingExponent (num den : Nat) : Int :=
  let guess := (Nat.log2 num : Int) - Nat.log2 den
  if den * Nat.pow 2 guess.toNat ≤ num * Nat.pow 2 (-guess).toNat then guess else guess - 1

/-- The nearest double to a quotient of whole numbers; too large ones become
infinite. -/
def ofRatio (negative : Bool) (num den : Nat) : Double :=
  if num = 0 ∨ den = 0 then zero negative
  else
    let step := max (leadingExponent num den - 52) (-1074)
    let rounded := roundQuotient (num * Nat.pow 2 (-step).toNat) (den * Nat.pow 2 step.toNat)
    ofSigned negative (min ((step + 1074).toNat * hiddenBit + rounded) infinityBits)

/-- The nearest double to a whole number times a power of two. -/
def ofScaled (negative : Bool) (m : Nat) (e : Int) : Double :=
  ofRatio negative (m * Nat.pow 2 e.toNat) (Nat.pow 2 (-e).toNat)

def ofInt (n : Int) : Double := ofRatio (n < 0) n.natAbs 1

/-- The nearest double to a whole number times a power of ten. Exponents out of
the range of doubles are settled without computing the power. -/
def ofDecimal (negative : Bool) (digits : Nat) (exponent : Int) : Double :=
  if digits = 0 then zero negative
  else
    let lead := (Nat.log2 digits : Int) * 30103 / 100000 + exponent
    if 400 < lead then infinity negative
    else if lead < -400 then zero negative
    else ofRatio negative (digits * Nat.pow 10 exponent.toNat) (Nat.pow 10 (-exponent).toNat)

/-- The signed mantissa at a smaller power of two. -/
def alignedMantissa (x : Double) (e : Int) : Int :=
  let m : Int := x.mantissa * Nat.pow 2 (x.exponent - e).toNat
  if x.isNegative then -m else m

def add (x y : Double) : Double :=
  if x.isNaN || y.isNaN then nan
  else if !x.isFinite then (if !y.isFinite && x.isNegative != y.isNegative then nan else x)
  else if !y.isFinite then y
  else
    let e := min x.exponent y.exponent
    let sum := x.alignedMantissa e + y.alignedMantissa e
    if sum = 0 then zero (x.isNegative && y.isNegative) else ofScaled (sum < 0) sum.natAbs e

def mul (x y : Double) : Double :=
  let negative := x.isNegative != y.isNegative
  if x.isNaN || y.isNaN then nan
  else if !x.isFinite || !y.isFinite then
    (if x.isZero || y.isZero then nan else infinity negative)
  else if x.isZero || y.isZero then zero negative
  else ofScaled negative (x.mantissa * y.mantissa) (x.exponent + y.exponent)

def neg (x : Double) : Double := ofSigned (!x.isNegative) x.magnitude

def sub (x y : Double) : Double := if y.isNaN then nan else x.add y.neg

/-- The quotient by a finite number other than zero. -/
def div (x y : Double) : Double :=
  let negative := x.isNegative != y.isNegative
  if x.isNaN then nan
  else if !x.isFinite then infinity negative
  else
    let e := x.exponent - y.exponent
    ofRatio negative (x.mantissa * Nat.pow 2 e.toNat) (y.mantissa * Nat.pow 2 (-e).toNat)

/-- What is left of a finite number after taking a positive finite one away from
its size as often as it fits. -/
def remainder (x y : Double) : Double :=
  let e := min x.exponent y.exponent
  ofScaled x.isNegative ((x.alignedMantissa e).natAbs % (y.alignedMantissa e).natAbs) e

/-- Numeric equality: the zeros are equal and a NaN equals nothing. -/
def equal (x y : Double) : Bool :=
  !x.isNaN && !y.isNaN && (x == y || (x.isZero && y.isZero))

/-- The place of a number in the numeric order. -/
def rank (x : Double) : Int := if x.isNegative then -(x.magnitude : Int) else x.magnitude

def le (x y : Double) : Bool := !x.isNaN && !y.isNaN && x.rank ≤ y.rank

/-- The whole part of a finite number, rounded towards zero. -/
def truncate (x : Double) : Int :=
  let m : Int := (x.mantissa * Nat.pow 2 x.exponent.toNat / Nat.pow 2 (-x.exponent).toNat : Nat)
  if x.isNegative then -m else m

def isWhole (x : Double) : Bool :=
  x.isFinite && x.mantissa * Nat.pow 2 x.exponent.toNat % Nat.pow 2 (-x.exponent).toNat = 0

/-- The whole part of a finite number, rounded down. -/
def floor (x : Double) : Int := if x.isNegative && !x.isWhole then x.truncate - 1 else x.truncate

/-- The whole part of a finite number, rounded up. -/
def ceil (x : Double) : Int := if x.isNegative || x.isWhole then x.truncate else x.truncate + 1

/-- The quotient by a positive finite number, rounded down to a whole number, and
what is left. A quotient that rounding brought up to a whole number stays. -/
def divMod (x y : Double) : Double × Double :=
  if !x.isFinite then (nan, nan)
  else
    let left := x.remainder y
    let quotient := (x.sub left).div y
    let (quotient, left) :=
      if left.isZero then (quotient, zero false)
      else if left.isNegative then (quotient.sub (ofInt 1), left.add y)
      else (quotient, left)
    if quotient.isZero then (zero x.isNegative, left)
    else
      let floored := ofInt quotient.floor
      (if (quotient.sub floored).le half then floored else floored.add (ofInt 1), left)

/-- What a finite number has beyond its truncated part, with its sign. -/
def fraction (x : Double) : Double :=
  ofScaled x.isNegative (x.mantissa * Nat.pow 2 x.exponent.toNat % Nat.pow 2 (-x.exponent).toNat)
    (min x.exponent 0)

/-- The nearest whole number to a finite number, to even on a tie. -/
def round (x : Double) : Int :=
  let m : Int :=
    roundQuotient (x.mantissa * Nat.pow 2 x.exponent.toNat) (Nat.pow 2 (-x.exponent).toNat)
  if x.isNegative then -m else m

def equalInt (x : Double) (n : Int) : Bool := x.isWhole && x.truncate = n

theorem nan_isNaN : nan.isNaN = true := by decide

theorem equal_self {x : Double} (h : x.isNaN = false) : x.equal x = true := by
  simp [equal, h]

theorem isFinite_of_isWhole {x : Double} (h : x.isWhole = true) : x.isFinite = true := by
  simp only [isWhole, Bool.and_eq_true] at h
  exact h.1

end Double
end WorkflowStudio
