import WorkflowStudio.Decimal.Numeral
import WorkflowStudio.Fault
import WorkflowStudio.Json.Order

/-!
Sums, products and quotients of values of unknown kind. Truth values count as
numbers, whole numbers stay whole, and a sum or product with a real number is
real. Texts and lists are joined by a sum and repeated by a product.
-/
namespace WorkflowStudio

/-- The nearest double, which a whole number beyond all doubles does not have. -/
def Amount.asDouble : Amount → Except Fault Double
  | .real x => .ok x
  | .whole n =>
      if (Double.ofInt n).isFinite then .ok (Double.ofInt n) else .error .wholeTooLargeForReal

namespace Json

/-- A number that is no real number. -/
def whole? (v : Json) : Option Int :=
  match v.amount? with
  | some (.whole n) => some n
  | _ => none

/-- The whole number that a text spells. -/
def wholeOfText (s : String) : Except Fault Int :=
  match Numeral.wideDigits? s with
  | none => .error (.malformedWhole (.str s))
  | some (negative, digits) =>
      if Numeral.digitLimit < digits.length then .error (.tooManyDigits digits.length)
      else .ok (Numeral.signed negative (Text.digitsValue digits))

/-- The whole number for a number or a numeral in any script; fractions are cut
off. Values of other kinds are no numbers at all. -/
def toWhole : Json → Except Fault Int
  | .int n => .ok n
  | .bool b => .ok (if b then 1 else 0)
  | .num x => if x.isFinite then .ok x.truncate else .error (.notFiniteWhole x.isNaN)
  | .str s => wholeOfText s
  | v => .error (.notNumeric v)

def combine (wholes : Int → Int → Int) (reals : Double → Double → Double) (a b : Amount) :
    Except Fault Json :=
  match a, b with
  | .whole m, .whole n => .ok (.int (wholes m n))
  | a, b => do return .num (reals (← a.asDouble) (← b.asDouble))

def plus (a b : Json) : Except Fault Json :=
  match a.amount?, b.amount? with
  | some m, some n => combine (· + ·) Double.add m n
  | _, _ => match a, b with
      | .str s, .str t => .ok (.str (s ++ t))
      | .arr s, .arr t => .ok (.arr (s ++ t))
      | .str _, _ => .error (.notJoinable a b)
      | .arr _, _ => .error (.notJoinable a b)
      | _, _ => .error (.noSum a b)

/-- There is no room for more characters or items than this. -/
def room : Nat := 0x4000000

/-- The number of times that something of a given size is repeated; it fits into
sixty-four bits. -/
def repetitions (size : Nat) (count : Json) : Except Fault Nat :=
  match count.whole? with
  | none => .error (.notRepeatable count)
  | some n =>
      if n < -0x8000000000000000 ∨ 0x8000000000000000 ≤ n then .error .countTooLarge
      else if room < size * n.toNat then .error .outOfRoom
      else .ok (if size = 0 then 0 else n.toNat)

/-- A text or a list, repeated a number of times. -/
def repeated? (v count : Json) : Option (Except Fault Json) :=
  match v with
  | .str s => some do
      return .str (String.join (List.replicate (← repetitions s.length count) s))
  | .arr items => some do
      return .arr (List.replicate (← repetitions items.length count) items).flatten
  | _ => none

def times (a b : Json) : Except Fault Json :=
  match a.amount?, b.amount? with
  | some m, some n => combine (· * ·) Double.mul m n
  | _, _ => ((repeated? a b).orElse fun _ => repeated? b a).getD (.error (.noProduct a b))

/-- Quotient and remainder by a positive whole number, rounded down. -/
def divMod (a : Json) (n : Int) : Except Fault (Json × Json) :=
  match a.amount? with
  | some (.whole m) => .ok (.int (m.fdiv n), .int (m.fmod n))
  | some (.real x) => do
      let (quotient, remainder) := x.divMod (← (Amount.whole n).asDouble)
      return (.num quotient, .num remainder)
  | none => .error (.noQuotient a (.int n))

theorem plus_int (m n : Int) : plus (.int m) (.int n) = .ok (.int (m + n)) := rfl

theorem times_int (m n : Int) : times (.int m) (.int n) = .ok (.int (m * n)) := rfl

theorem divMod_int (m n : Int) : divMod (.int m) n = .ok (.int (m.fdiv n), .int (m.fmod n)) := rfl

end Json
end WorkflowStudio
