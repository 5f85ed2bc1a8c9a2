import WorkflowStudio.Decimal.Layout
import WorkflowStudio.Decimal.Numeral
import WorkflowStudio.Fault
import WorkflowStudio.Json.Access
import WorkflowStudio.Text.Digit

/-!
Numbered names. A new label takes the number after the highest one in use, and
a new id takes the first free suffix.
-/
namespace WorkflowStudio.Numbering

def afterBase : List Char → List Char → Option (List Char)
  | [], rest => some rest
  | b :: base, c :: cs => if b = c then afterBase base cs else none
  | _ :: _, [] => none

def dropBreak (cs : List Char) : List Char := if cs = ['\n'] then [] else cs

/-- The digits that follow a base label, which may be set apart by blanks and
followed by one line break. A label without a number has no digits. -/
def digitsAfter? (base label : String) : Option (List Char) :=
  (afterBase base.toList label.toList).bind fun rest =>
    let (digits, tail) := (rest.dropWhile Text.isBlank).span Text.isDigit
    if dropBreak tail = [] then some digits else none

/-- No digits count as zero. -/
def numberOf (digits : List Char) : Except Fault Nat :=
  if Numeral.digitLimit < digits.length then .error (.tooManyDigits digits.length)
  else .ok (Text.digitsValue digits)

def largest : List Nat → Nat
  | [] => 0
  | n :: rest => max n (largest rest)

/-- The label after those with the given numbers. -/
def labelAfter (base : String) (numbers : List Nat) : Except Fault String :=
  let next := if numbers.isEmpty then 1 else largest numbers + 1
  if Nat.pow 10 Numeral.digitLimit ≤ next then .error .unwritableWhole
  else .ok (base ++ " " ++ toString next)

/-- The next free numbered label. -/
def nextLabel (base : String) (labels : List String) : Except Fault String := do
  labelAfter base (← (labels.filterMap (digitsAfter? base)).mapM numberOf)

/-- The number of a label of unknown kind; one that is not present is empty. -/
def numberOfAny? (base : String) (label : Json) : Except Fault (Option Nat) := do
  let text ← match label.orElse (.str "") with
    | .str text => .ok text
    | v => .error (.notText v)
  (digitsAfter? base text).mapM numberOf

/-- The next free numbered label beside labels of unknown kind. -/
def nextLabelAmong (base : String) (labels : List Json) : Except Fault String := do
  labelAfter base (← labels.filterMapM (numberOfAny? base))

/-- Drops a run of digits at the end and the blanks before it. -/
def dropDigits (reversed : List Char) : List Char :=
  match reversed.dropWhile Text.isDigit with
  | rest => if rest.length = reversed.length then reversed else rest.dropWhile Text.isBlank

/-- A label without its number. A line break after the number stays. -/
def dropNumber (label : String) : String :=
  String.ofList (match label.toList.reverse with
    | '\n' :: rest => ('\n' :: dropDigits rest).reverse
    | reversed => (dropDigits reversed).reverse)

def withSuffix (base : String) (k : Nat) : String := base ++ "-" ++ toString k

/-- The first free suffix from the given one on, in a number of attempts. -/
def freshFrom (base : String) (taken : List String) (k : Nat) : Nat → String
  | 0 => withSuffix base k
  | attempts + 1 =>
      if taken.contains (withSuffix base k) then freshFrom base taken (k + 1) attempts
      else withSuffix base k

/-- The base itself when it is free, else the base with the first free suffix. -/
def freshId (base : String) (taken : List String) : String :=
  if taken.contains base then freshFrom base taken 1 taken.length else base

end WorkflowStudio.Numbering
