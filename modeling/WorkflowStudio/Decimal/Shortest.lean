import WorkflowStudio.Decimal.Double

/-!
The shortest decimal that reads back as a given number. The numbers that round
to a double form an interval around it; of the decimals in the interval one
with the fewest digits is chosen, and of those the nearest.
-/
namespace WorkflowStudio

/-- A whole number of digits times a power of ten. -/
structure Decimal where
  digits : Nat
  exponent : Int
deriving DecidableEq, Repr

namespace Decimal

/-- The interval around a positive number that rounds to it, on a scale on
which its three points are whole numbers. -/
structure Basin where
  low : Nat
  value : Nat
  high : Nat
  scale : Nat
  closed : Bool

/-- The gap below a power of two is half of the gap above it. -/
def basin (x : Double) : Basin :=
  let m := x.mantissa
  let up := Nat.pow 2 (x.exponent - 2).toNat
  let narrow := m = Double.hiddenBit ∧ 1 < x.biasedExponent
  { low := (4 * m - if narrow then 1 else 2) * up
    value := 4 * m * up
    high := (4 * m + 2) * up
    scale := Nat.pow 2 (2 - x.exponent).toNat
    closed := m % 2 = 0 }

/-- Whether a multiple of a power of ten lies in the interval. -/
def Basin.holds (b : Basin) (n : Nat) (power : Int) : Bool :=
  let point := n * Nat.pow 10 power.toNat * b.scale
  let unit := Nat.pow 10 (-power).toNat
  if b.closed then b.low * unit ≤ point && point ≤ b.high * unit
  else b.low * unit < point && point < b.high * unit

/-- The exponent of the leading digit of a positive quotient. -/
def leadingPower (num den : Nat) : Int :=
  let guess := ((Nat.log2 num : Int) - Nat.log2 den) * 30103 / 100000
  let reaches (p : Int) : Bool := den * Nat.pow 10 p.toNat ≤ num * Nat.pow 10 (-p).toNat
  if reaches (guess + 1) then guess + 1
  else if reaches guess then guess
  else guess - 1

/-- The multiples of a power of ten next to the value, the nearer one first and
an even one first on a tie. -/
def neighbours (b : Basin) (power : Int) : Nat × Nat :=
  let num := b.value * Nat.pow 10 (-power).toNat
  let den := b.scale * Nat.pow 10 power.toNat
  let below := num / den
  let rest := num % den
  if den < 2 * rest ∨ (den = 2 * rest ∧ below % 2 = 1) then (below + 1, below)
  else (below, below + 1)

/-- Tries one digit more at a time. -/
def search (b : Basin) (lead : Int) : Nat → Nat → Decimal
  | 0, count =>
      let power := lead - count
      ⟨(neighbours b power).1, power⟩
  | fuel + 1, count =>
      let power := lead - count
      let near := neighbours b power
      if b.holds near.1 power then ⟨near.1, power⟩
      else if b.holds near.2 power then ⟨near.2, power⟩
      else search b lead fuel (count + 1)

/-- Moves zeros at the end into the exponent. -/
def dropZeros : Nat → Decimal → Decimal
  | 0, d => d
  | fuel + 1, d =>
      if d.digits ≠ 0 ∧ d.digits % 10 = 0 then dropZeros fuel ⟨d.digits / 10, d.exponent + 1⟩
      else d

/-- The shortest decimal for the magnitude of a finite number. Seventeen digits
always tell doubles apart. -/
def shortest (x : Double) : Decimal :=
  if x.isZero then ⟨0, 0⟩
  else
    let b := basin x
    dropZeros 20 (search b (leadingPower b.value b.scale) 17 0)

end Decimal
end WorkflowStudio
