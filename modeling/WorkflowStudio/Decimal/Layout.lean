import WorkflowStudio.Decimal.Shortest

/-!
How a number is written. A layout says which exponents of the leading digit are
written positionally, how wide an exponent is otherwise, and the words for the
numbers that are not finite. A positional number keeps one digit after its
point.
-/
namespace WorkflowStudio.Decimal

structure Layout where
  leastPositional : Int
  firstScientific : Int
  exponentWidth : Nat
  nanText : String
  infinityText : String
  negativeInfinityText : String

def padLeft (width : Nat) (cs : List Char) : List Char :=
  List.replicate (width - cs.length) '0' ++ cs

def intText (n : Int) : String := toString n

/-- The digits of a number with its point after the given number of them. -/
def positional (digits : List Char) (point : Int) : List Char :=
  if point ≤ 0 then '0' :: '.' :: (List.replicate (-point).toNat '0' ++ digits)
  else
    let before := digits.take point.toNat
    let after := digits.drop point.toNat
    before ++ List.replicate (point.toNat - before.length) '0' ++
      '.' :: (if after.isEmpty then ['0'] else after)

def scientific (width : Nat) (digits : List Char) (power : Int) : List Char :=
  let fraction := digits.drop 1
  digits.take 1 ++ (if fraction.isEmpty then [] else '.' :: fraction) ++
    'e' :: (if power < 0 then '-' else '+') :: padLeft width (toString power.natAbs).toList

def magnitudeText (layout : Layout) (d : Decimal) : List Char :=
  let digits := (toString d.digits).toList
  let lead := d.exponent + digits.length - 1
  if layout.leastPositional ≤ lead ∧ lead < layout.firstScientific then
    positional digits (lead + 1)
  else scientific layout.exponentWidth digits lead

def Layout.text (layout : Layout) (x : Double) : String :=
  if x.isNaN then layout.nanText
  else if !x.isFinite then
    (if x.isNegative then layout.negativeInfinityText else layout.infinityText)
  else
    String.ofList ((if x.isNegative then ['-'] else []) ++ magnitudeText layout (shortest x))

/-- The layout of stored texts, in which a number that is not finite is null. -/
def stored : Layout := ⟨-5, 16, 1, "null", "null", "null"⟩

/-- The layout of texts for a reader. -/
def displayed : Layout := ⟨-4, 16, 2, "nan", "inf", "-inf"⟩

/-- The layout of logged texts. -/
def logged : Layout := { displayed with
  nanText := "NaN", infinityText := "Infinity", negativeInfinityText := "-Infinity" }

end WorkflowStudio.Decimal
