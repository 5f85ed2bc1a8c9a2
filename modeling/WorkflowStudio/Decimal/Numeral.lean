import WorkflowStudio.Decimal.Double
import WorkflowStudio.Text.Blank
import WorkflowStudio.Text.Digit

/-!
Numerals in a text. Whole numbers and real numbers are read from plain digits,
where single underscores may part the digits; a wider reading of whole numbers
takes the digits of every script.
-/
namespace WorkflowStudio.Numeral

/-- A whole number with more digits than this is not read. -/
def digitLimit : Nat := 4300

def isPlainDigit (c : Char) : Bool := '0' ≤ c && c ≤ '9'

def plainValue (cs : List Char) : Nat :=
  cs.foldl (fun value c => value * 10 + (c.toNat - '0'.toNat)) 0

/-- Splits off a sign; true stands for minus. -/
def splitSign : List Char → Bool × List Char
  | '-' :: rest => (true, rest)
  | '+' :: rest => (false, rest)
  | rest => (false, rest)

def signed (negative : Bool) (n : Nat) : Int := if negative then -(n : Int) else n

/-- Whether a numeral is over the limit; a minus counts as one digit. -/
def isTooLong (negative : Bool) (digits : List Char) : Bool :=
  digitLimit < digits.length + (if negative then 1 else 0)

/-- Removes underscores that stand between two digits. -/
def joinDigitsFrom (isDigit : Char → Bool) : List Char → Option (List Char)
  | [] => none
  | [c] => if isDigit c then some [c] else none
  | c :: '_' :: rest =>
      if isDigit c then (joinDigitsFrom isDigit rest).map (c :: ·) else none
  | c :: rest => if isDigit c then (joinDigitsFrom isDigit rest).map (c :: ·) else none

inductive WholeProblem where
  | malformed
  | tooLong
deriving DecidableEq

/-- Reads a whole number written without any liberties. The length counts even
when something else follows. -/
def plainWhole? (cs : List Char) : Except WholeProblem Int :=
  let (negative, rest) := match cs with
    | '-' :: rest => (true, rest)
    | rest => (false, rest)
  let (digits, tail) := rest.span isPlainDigit
  if digits = ['0'] && tail.isEmpty then .ok 0
  else if digits.isEmpty || digits.head? = some '0' then .error .malformed
  else if isTooLong negative digits then .error .tooLong
  else if tail.isEmpty then .ok (signed negative (plainValue digits))
  else .error .malformed

/-- What follows a run of zeros and underscores, whose last character is given.
Of nothing but zeros the last one stays, and so does one before a point. -/
def afterZeros (last : Char) : List Char → Option (List Char)
  | [] => some [last]
  | c :: rest =>
      if c = '0' ∨ c = '_' then afterZeros c rest
      else if isPlainDigit c ∨ c = '-' then some (c :: rest)
      else if c = '.' then some (last :: c :: rest)
      else none

/-- Drops the zeros in front of a numeral. -/
def dropZeros : List Char → Option (List Char)
  | '0' :: rest => afterZeros '0' rest
  | c :: rest => if isPlainDigit c ∨ c = '-' then some (c :: rest) else none
  | [] => none

/-- A fraction of zeros may follow the digits of a whole number. -/
def dropZeroFraction (cs : List Char) : List Char :=
  match cs.span (· != '.') with
  | (whole, '.' :: fraction) =>
      if !fraction.isEmpty && fraction.all (· == '0') then whole else cs
  | _ => cs

def hasLooseUnderscore : List Char → Bool
  | [] => false
  | ['_'] => true
  | '_' :: '_' :: _ => true
  | _ :: rest => hasLooseUnderscore rest

/-- Removes underscores unless one begins or ends the text or follows another. -/
def join? (cs : List Char) : Option (List Char) :=
  if cs.head? = some '_' || hasLooseUnderscore cs then none else some (cs.filter (· != '_'))

/-- A numeral without the liberties that its spelling takes: white space around
it, a plus, zeros in front of it, a fraction of zeros, and underscores. -/
def cleaned? (s : String) : Option (List Char) :=
  let tidy (cs : List Char) : Option (List Char) := (dropZeros cs).map dropZeroFraction
  let numeral := match Text.trimBy Text.isSpace s.toList with
    | '+' :: rest => if rest.head? = some '-' then none else tidy rest
    | '-' :: rest => (tidy rest).map ('-' :: ·)
    | rest => tidy rest
  numeral.map fun cs => (join? cs).getD cs

/-- Reads a whole number in plain digits, as it stands or else cleaned. -/
def whole? (s : String) : Except WholeProblem Int :=
  match plainWhole? s.toList with
  | .error .malformed => match cleaned? s with
      | some cs => plainWhole? cs
      | none => .error .malformed
  | result => result

/-- The sign and the digits of a whole number in the digits of any script, with
white space around it. -/
def wideDigits? (s : String) : Option (Bool × List Char) :=
  let (negative, rest) := splitSign (Text.trimBy Text.isSpace s.toList)
  (joinDigitsFrom Text.isDigit rest).map (negative, ·)

/-- The exponent at the end of a real number. -/
def exponent? : List Char → Option Int
  | [] => some 0
  | c :: rest =>
      if c = 'e' ∨ c = 'E' then
        let (negative, digits) := splitSign rest
        if digits.isEmpty || !digits.all isPlainDigit then none
        else some (signed negative (plainValue digits))
      else none

def unsignedReal? (negative : Bool) (cs : List Char) : Option Double :=
  let (whole, rest) := cs.span isPlainDigit
  let (fraction, tail) := match rest with
    | '.' :: more => more.span isPlainDigit
    | more => ([], more)
  if whole.isEmpty && fraction.isEmpty then none
  else (exponent? tail).map fun e =>
    Double.ofDecimal negative (plainValue (whole ++ fraction)) (e - fraction.length)

/-- Reads a real number in its plain spelling. -/
def plainReal? (cs : List Char) : Option Double :=
  let (negative, rest) := splitSign cs
  match (String.ofList rest).toLower with
  | "nan" => some Double.nan
  | "inf" => some (Double.infinity negative)
  | "infinity" => some (Double.infinity negative)
  | _ => unsignedReal? negative rest

/-- Reads a real number with white space around it, or one parted by underscores
and without white space. -/
def real? (s : String) : Option Double :=
  (plainReal? (Text.trimBy Text.isSpace s.toList)).orElse fun _ =>
    (join? s.toList).bind plainReal?

end WorkflowStudio.Numeral
