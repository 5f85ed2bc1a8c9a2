import WorkflowStudio.Json.Basic
import WorkflowStudio.Decimal.Numeral
import WorkflowStudio.Text.Surrogate

/-!
Reading JSON text. The grammar is the strict one, with the three words for
numbers that are not finite added. Dialects differ in how deep values may nest,
in which numbers may be how long, and in what becomes of an escaped half of a
surrogate pair.
-/
namespace WorkflowStudio.Json

structure Dialect where
  /-- The number of lists and objects with something in them that may enclose a
  value. -/
  deepest : Nat
  keepsLoneSurrogates : Bool
  /-- Whether the limit of digits counts the sign, and holds for the whole part
  of a real number too. -/
  boundsReals : Bool

/-- Stored texts nest at most two hundred deep and hold no lone surrogates. -/
def strict : Dialect := ⟨200, false, true⟩

/-- Keeps lone surrogates by their stand-ins. -/
def lenient : Dialect := ⟨100000, true, false⟩

def isTextBlank (c : Char) : Bool := c == ' ' || c == '\t' || c == '\n' || c == '\r'

def skipBlank (cs : List Char) : List Char := cs.dropWhile isTextBlank

def hexValue? (c : Char) : Option Nat :=
  if '0' ≤ c ∧ c ≤ '9' then some (c.toNat - '0'.toNat)
  else if 'a' ≤ c ∧ c ≤ 'f' then some (c.toNat - 'a'.toNat + 10)
  else if 'A' ≤ c ∧ c ≤ 'F' then some (c.toNat - 'A'.toNat + 10)
  else none

def hexUnit? (cs : List Char) : Option Nat :=
  cs.foldl (fun unit c => unit.bind fun n => (hexValue? c).map (n * 16 + ·)) (some 0)

/-- The character that a one-letter escape stands for. -/
def escaped? : Char → Option Nat
  | '"' => some 0x22
  | '\\' => some 0x5c
  | '/' => some 0x2f
  | 'b' => some 0x8
  | 'f' => some 0xc
  | 'n' => some 0xa
  | 'r' => some 0xd
  | 't' => some 0x9
  | _ => none

/-- Reads code units up to the closing quote; the units come out reversed. -/
def readUnits (units : List Nat) : List Char → Option (List Nat × List Char)
  | [] => none
  | '"' :: rest => some (units, rest)
  | '\\' :: 'u' :: a :: b :: c :: d :: rest =>
      match hexUnit? [a, b, c, d] with
      | some unit => readUnits (unit :: units) rest
      | none => none
  | '\\' :: c :: rest =>
      match escaped? c with
      | some unit => readUnits (unit :: units) rest
      | none => none
  | c :: rest => if c.toNat < 0x20 then none else readUnits (c.toNat :: units) rest

/-- Joins surrogate pairs. -/
def joinUnits (dialect : Dialect) : List Nat → Option (List Char)
  | [] => some []
  | unit :: rest =>
      if Text.isHighSurrogate unit then
        match rest with
        | low :: rest =>
            if Text.isLowSurrogate low then
              (joinUnits dialect rest).map
                (Char.ofNat (0x10000 + (unit - 0xd800) * 0x400 + (low - 0xdc00)) :: ·)
            else if dialect.keepsLoneSurrogates then
              (joinUnits dialect (low :: rest)).map (Text.standIn unit :: ·)
            else none
        | [] => if dialect.keepsLoneSurrogates then some [Text.standIn unit] else none
      else if Text.isLowSurrogate unit then
        if dialect.keepsLoneSurrogates then
          (joinUnits dialect rest).map (Text.standIn unit :: ·)
        else none
      else (joinUnits dialect rest).map (Char.ofNat unit :: ·)
termination_by units => units.length

def readString (dialect : Dialect) (cs : List Char) : Option (String × List Char) :=
  (readUnits [] cs).bind fun (units, rest) =>
    (joinUnits dialect units.reverse).map fun text => (String.ofList text, rest)

/-- The fraction after a point; a point without digits is malformed. -/
def readFraction : List Char → Option (List Char × List Char)
  | '.' :: rest =>
      let (digits, tail) := rest.span Numeral.isPlainDigit
      if digits.isEmpty then none else some (digits, tail)
  | rest => some ([], rest)

def readExponent : List Char → Option (Option Int × List Char)
  | c :: rest =>
      if c = 'e' ∨ c = 'E' then
        let (negative, more) := Numeral.splitSign rest
        let (digits, tail) := more.span Numeral.isPlainDigit
        if digits.isEmpty then none
        else some (some (Numeral.signed negative (Numeral.plainValue digits)), tail)
      else some (none, c :: rest)
  | [] => some (none, [])

/-- Whether the whole part of a number is too long to be read. -/
def Dialect.refuses (dialect : Dialect) (negative isWhole : Bool) (digits : List Char) : Bool :=
  if dialect.boundsReals then Numeral.isTooLong negative digits
  else isWhole && Numeral.isTooLong false digits

/-- A number without fraction and exponent is a whole number. -/
def readMagnitude (dialect : Dialect) (negative : Bool) (cs : List Char) :
    Option (Json × List Char) :=
  let (digits, rest) := cs.span Numeral.isPlainDigit
  if digits.isEmpty || (digits.head? = some '0' && digits.length ≠ 1) then none
  else
    (readFraction rest).bind fun (fraction, rest) =>
      (readExponent rest).bind fun (exponent, rest) =>
        let isWhole := fraction.isEmpty && exponent.isNone
        if dialect.refuses negative isWhole digits then none
        else if isWhole then
          some (.int (Numeral.signed negative (Numeral.plainValue digits)), rest)
        else
          some (.num (Double.ofDecimal negative (Numeral.plainValue (digits ++ fraction))
            (exponent.getD 0 - fraction.length)), rest)

def dropWord : List Char → List Char → Option (List Char)
  | [], rest => some rest
  | w :: word, c :: rest => if w = c then dropWord word rest else none
  | _ :: _, [] => none

def readWord (word : String) (value : Json) (cs : List Char) : Option (Json × List Char) :=
  (dropWord word.toList cs).map (value, ·)

def readNegative (dialect : Dialect) (cs : List Char) : Option (Json × List Char) :=
  if cs.head? = some 'I' then readWord "Infinity" (.num (Double.infinity true)) cs
  else readMagnitude dialect true cs

mutual

/-- Reads one value; the first number bounds the steps, the second the depth
that is left. -/
def readValue (dialect : Dialect) : Nat → Nat → List Char → Option (Json × List Char)
  | 0, _, _ => none
  | fuel + 1, depth, cs =>
      match skipBlank cs with
      | [] => none
      | '"' :: rest => (readString dialect rest).map fun (s, rest) => (.str s, rest)
      | '-' :: rest => readNegative dialect rest
      | '[' :: rest =>
          match skipBlank rest, depth with
          | ']' :: rest, _ => some (.arr [], rest)
          | _, 0 => none
          | rest, depth + 1 => (readItems dialect fuel depth rest).map fun (items, rest) =>
              (.arr items, rest)
      | '{' :: rest =>
          match skipBlank rest, depth with
          | '}' :: rest, _ => some (.obj [], rest)
          | _, 0 => none
          | rest, depth + 1 => (readFields dialect fuel depth rest).map fun (fields, rest) =>
              (.obj (Fields.ofPairs fields), rest)
      | 't' :: rest => readWord "rue" (.bool true) rest
      | 'f' :: rest => readWord "alse" (.bool false) rest
      | 'n' :: rest => readWord "ull" .null rest
      | 'N' :: rest => readWord "aN" (.num Double.nan) rest
      | 'I' :: rest => readWord "nfinity" (.num (Double.infinity false)) rest
      | rest => readMagnitude dialect false rest

def readItems (dialect : Dialect) : Nat → Nat → List Char → Option (List Json × List Char)
  | 0, _, _ => none
  | fuel + 1, depth, cs =>
      match readValue dialect fuel depth cs with
      | none => none
      | some (item, rest) =>
          match skipBlank rest with
          | ',' :: rest =>
              (readItems dialect fuel depth rest).map fun (items, rest) => (item :: items, rest)
          | ']' :: rest => some ([item], rest)
          | _ => none

def readFields (dialect : Dialect) :
    Nat → Nat → List Char → Option (List (String × Json) × List Char)
  | 0, _, _ => none
  | fuel + 1, depth, cs =>
      match skipBlank cs with
      | '"' :: rest =>
          match readString dialect rest with
          | none => none
          | some (name, rest) =>
              match skipBlank rest with
              | ':' :: rest =>
                  match readValue dialect fuel depth rest with
                  | none => none
                  | some (value, rest) =>
                      match skipBlank rest with
                      | ',' :: rest =>
                          (readFields dialect fuel depth rest).map fun (fields, rest) =>
                            ((name, value) :: fields, rest)
                      | '}' :: rest => some ([(name, value)], rest)
                      | _ => none
              | _ => none
      | _ => none

end

/-- Reads a text that holds one value and blanks around it. -/
def read? (dialect : Dialect) (text : String) : Option Json :=
  let cs := text.toList
  match readValue dialect (2 * cs.length + 2) dialect.deepest cs with
  | some (value, rest) => if (skipBlank rest).isEmpty then some value else none
  | none => none

end WorkflowStudio.Json
