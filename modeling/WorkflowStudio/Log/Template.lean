import WorkflowStudio.Decimal.Fixed
import WorkflowStudio.Decimal.Numeral
import WorkflowStudio.Json.Access
import WorkflowStudio.Json.Shown

/-!
Message templates. A placeholder begins with a percent sign and takes the next
argument, or the field that it names in parentheses. Its flags, width and
precision lay out the value, and its last letter says how the value is written.
Two percent signs stand for one. Placeholders are filled from left to right, and
the first that cannot be filled is the fault of the whole template.
-/
namespace WorkflowStudio.Template

/-- The values that are left for placeholders. -/
structure Arguments where
  fields : Option Fields
  left : List Json

/-- A single object with fields is taken for named arguments. -/
def Arguments.of : List Json → Arguments
  | [.obj (field :: fields)] => ⟨some (field :: fields), [.obj (field :: fields)]⟩
  | values => ⟨none, values⟩

def Arguments.next (args : Arguments) : Except Fault (Json × Arguments) :=
  match args.left with
  | value :: left => .ok (value, { args with left := left })
  | [] => .error .missingArguments

structure Flags where
  leftAligned : Bool
  signed : Bool
  spaced : Bool
  alternate : Bool
  zeroed : Bool

/-- How a placeholder lays out its value. -/
structure Shape where
  flags : Flags
  width : Nat
  precision : Option Nat

/-- The part of a template that is not read yet, and how much was read. -/
structure Cursor where
  rest : List Char
  index : Nat

def Cursor.next (c : Cursor) : Except Fault (Char × Cursor) :=
  match c.rest with
  | ch :: rest => .ok (ch, ⟨rest, c.index + 1⟩)
  | [] => .error .incompleteFormat

/-- The name up to the parenthesis that closes it; inner ones come in pairs. -/
def readKey (depth : Nat) (key : List Char) (index : Nat) :
    List Char → Except Fault (String × Cursor)
  | [] => .error .incompleteKey
  | ')' :: rest => match depth with
      | 0 => .ok (String.ofList key.reverse, ⟨rest, index + 1⟩)
      | depth + 1 => readKey depth (')' :: key) (index + 1) rest
  | '(' :: rest => readKey (depth + 1) ('(' :: key) (index + 1) rest
  | c :: rest => readKey depth (c :: key) (index + 1) rest

/-- The named field becomes the only argument that is left. -/
def choose (args : Arguments) (key : String) : Except Fault Arguments :=
  match args.fields with
  | none => .error .mappingRequired
  | some fields => match fields.get? key with
      | some value => .ok { args with left := [value] }
      | none => .error (.missingKey (.str key))

def readName (args : Arguments) (c : Cursor) : Except Fault (Arguments × Cursor) :=
  match c.rest with
  | '(' :: rest =>
      if args.fields.isNone then .error .mappingRequired
      else do
        let (key, c) ← readKey 0 [] (c.index + 1) rest
        return (← choose args key, c)
  | _ => .ok (args, c)

def readFlags (flags : Flags) (index : Nat) : List Char → Flags × Cursor
  | '-' :: rest => readFlags { flags with leftAligned := true } (index + 1) rest
  | '+' :: rest => readFlags { flags with signed := true } (index + 1) rest
  | ' ' :: rest => readFlags { flags with spaced := true } (index + 1) rest
  | '#' :: rest => readFlags { flags with alternate := true } (index + 1) rest
  | '0' :: rest => readFlags { flags with zeroed := true } (index + 1) rest
  | rest => (flags, ⟨rest, index⟩)

def readCount (c : Cursor) : Nat × Cursor :=
  let digits := c.rest.takeWhile Numeral.isPlainDigit
  (Numeral.plainValue digits, ⟨c.rest.drop digits.length, c.index + digits.length⟩)

/-- How large a width or a precision can be, by the name of each and the word
that holds it. -/
structure Capacity where
  name : String
  word : String
  bound : Nat

def widths : Capacity := ⟨"width", "ssize_t", 0x8000000000000000⟩

def precisions : Capacity := ⟨"precision", "int", 0x80000000⟩

def Capacity.check (capacity : Capacity) (n : Int) : Except Fault Int :=
  if -(capacity.bound : Int) ≤ n ∧ n < capacity.bound then .ok n
  else .error (.argumentTooLarge capacity.word)

/-- A count that is written out or, for a star, taken from the arguments. -/
def readAmount (capacity : Capacity) (args : Arguments) (c : Cursor) :
    Except Fault (Int × Arguments × Cursor) :=
  match c.rest with
  | '*' :: rest => do
      let (value, args) ← args.next
      match value with
      | .int n => return (← capacity.check n, args, ⟨rest, c.index + 1⟩)
      | .bool b => return (if b then 1 else 0, args, ⟨rest, c.index + 1⟩)
      | _ => .error .starWidthRequired
  | _ =>
      let (n, c) := readCount c
      if n < capacity.bound then .ok (n, args, c) else .error (.layoutTooLarge capacity.name)

def readPrecision (args : Arguments) (c : Cursor) :
    Except Fault (Option Nat × Arguments × Cursor) :=
  match c.rest with
  | '.' :: rest => do
      let (n, args, c) ← readAmount precisions args ⟨rest, c.index + 1⟩
      return (some n.toNat, args, c)
  | _ => .ok (none, args, c)

/-- A letter for the size of a number says nothing. -/
def skipSize (c : Cursor) : Cursor :=
  match c.rest with
  | 'h' :: rest | 'l' :: rest | 'L' :: rest => ⟨rest, c.index + 1⟩
  | _ => c

/-- A value as text before it is laid out: its sign, a mark of its base, and the
rest. -/
structure Piece where
  sign : List Char
  mark : List Char
  body : List Char
  numeric : Bool

def Piece.plain (body : List Char) : Piece := ⟨[], [], body, false⟩

def signOf (flags : Flags) (negative : Bool) : List Char :=
  if negative then ['-'] else if flags.signed then ['+'] else if flags.spaced then [' '] else []

/-- Fills a piece up to the width: with zeros behind the sign, or with blanks on
either side. -/
def layOut (shape : Shape) (piece : Piece) : List Char :=
  let front := piece.sign ++ piece.mark
  let gap := shape.width - (front.length + piece.body.length)
  if shape.flags.leftAligned then front ++ piece.body ++ List.replicate gap ' '
  else if piece.numeric && shape.flags.zeroed then
    front ++ List.replicate gap '0' ++ piece.body
  else List.replicate gap ' ' ++ front ++ piece.body

def asciiChar (c : Char) : List Char :=
  if c.toNat < 0x80 then [c]
  else if c.toNat < 0x100 then '\\' :: 'x' :: Text.hexDigits 2 c.toNat
  else if c.toNat < 0x10000 then '\\' :: 'u' :: Text.hexDigits 4 c.toNat
  else '\\' :: 'U' :: Text.hexDigits 8 c.toNat

def textPiece (shape : Shape) (cs : List Char) : Piece :=
  .plain (match shape.precision with
    | some count => cs.take count
    | none => cs)

/-- The whole number for a placeholder of a decimal number. -/
def decimalOf (conversion : Char) : Json → Except Fault Int
  | .int n => .ok n
  | .bool b => .ok (if b then 1 else 0)
  | .num x => if x.isFinite then .ok x.truncate else .error (.notFiniteWhole x.isNaN)
  | v => .error (.numberRequired conversion v)

/-- The whole number for a placeholder in another base. -/
def basedOf (conversion : Char) : Json → Except Fault Int
  | .int n => .ok n
  | .bool b => .ok (if b then 1 else 0)
  | v => .error (.wholeRequired conversion v)

/-- More digits than this cannot be asked for in a whole number. -/
def wholeDigits : Nat := 0x7ffffffc

def wholePiece (shape : Shape) (base : Nat) (mark : List Char) (n : Int) : Except Fault Piece :=
  let digits := shape.precision.getD 0
  if wholeDigits < digits then .error .precisionTooLong
  else if base = 10 && Json.isOverlong n then .error .unwritableWhole
  else .ok
    { sign := signOf shape.flags (n < 0)
      mark := mark
      body := Decimal.padLeft digits (Nat.toDigits base n.natAbs)
      numeric := true }

def markOf (shape : Shape) (letter : Char) : List Char :=
  if shape.flags.alternate then ['0', letter] else []

def capital (piece : Piece) : Piece :=
  { piece with mark := piece.mark.map Char.toUpper, body := piece.body.map Char.toUpper }

def realOf : Json → Except Fault Double
  | .num x => .ok x
  | .int n =>
      let x := Double.ofInt n
      if x.isFinite then .ok x else .error .wholeTooLargeForReal
  | .bool b => .ok (Double.ofInt (if b then 1 else 0))
  | v => .error (.realRequired v)

def realPiece (shape : Shape) (write : Nat → Bool → Double → List Char) (x : Double) : Piece :=
  { sign := signOf shape.flags (x.isNegative && !x.isNaN)
    mark := []
    body := if x.isNaN then "nan".toList
      else if !x.isFinite then "inf".toList
      else write (shape.precision.getD 6) shape.flags.alternate x
    numeric := true }

def characterOf : Json → Except Fault Char
  | .str s => match s.toList with
      | [c] => .ok c
      | _ => .error (.characterRequired (.str s))
  | .int n =>
      if 0 ≤ n ∧ n < 0x110000 then .ok (Text.charOfCode n.toNat)
      else .error .characterOutOfRange
  | .bool b => .ok (Text.charOfCode (if b then 1 else 0))
  | v => .error (.characterRequired v)

/-- The piece for a value and the letter at the end of its placeholder. -/
def pieceOf (shape : Shape) (conversion : Char) (index : Nat) (v : Json) : Except Fault Piece :=
  match conversion with
  | 's' => v.checkDigits.map fun _ => textPiece shape v.display.toList
  | 'r' => v.checkDigits.map fun _ => textPiece shape v.named.toList
  | 'a' => v.checkDigits.map fun _ => textPiece shape (v.named.toList.flatMap asciiChar)
  | 'd' | 'i' | 'u' => do wholePiece shape 10 [] (← decimalOf conversion v)
  | 'o' => do wholePiece shape 8 (markOf shape 'o') (← basedOf conversion v)
  | 'x' => do wholePiece shape 16 (markOf shape 'x') (← basedOf conversion v)
  | 'X' => do
      return capital (← wholePiece shape 16 (markOf shape 'x') (← basedOf conversion v))
  | 'e' => (realOf v).map (realPiece shape Decimal.exponentPlaces)
  | 'f' => (realOf v).map (realPiece shape Decimal.fixedPlaces)
  | 'g' => (realOf v).map (realPiece shape Decimal.generalPlaces)
  | 'E' => (realOf v).map fun x => capital (realPiece shape Decimal.exponentPlaces x)
  | 'F' => (realOf v).map fun x => capital (realPiece shape Decimal.fixedPlaces x)
  | 'G' => (realOf v).map fun x => capital (realPiece shape Decimal.generalPlaces x)
  | 'c' => (characterOf v).map fun c => .plain [c]
  | _ => .error (.unknownConversion conversion index)

/-- Fills the placeholder that the rest of a template begins with. -/
def fill (args : Arguments) (c : Cursor) : Except Fault (List Char × Arguments × Cursor) := do
  let (args, c) ← readName args c
  let (flags, c) := readFlags ⟨false, false, false, false, false⟩ c.index c.rest
  let (width, args, c) ← readAmount widths args c
  let (precision, args, c) ← readPrecision args c
  let (conversion, c) ← (skipSize c).next
  let (value, args) ← args.next
  let flags := { flags with leftAligned := flags.leftAligned || width < 0 }
  let shape : Shape := ⟨flags, width.natAbs, precision⟩
  let piece ← pieceOf shape conversion (c.index - 1) value
  return (layOut shape piece, args, c)

/-- Expands a template; each step reads at least one character of it. -/
def expandFrom : Nat → Arguments → Cursor → Except Fault (List Char × Arguments)
  | 0, args, _ => .ok ([], args)
  | steps + 1, args, c => match c.rest with
      | [] => .ok ([], args)
      | '%' :: '%' :: rest => do
          let (more, args) ← expandFrom steps args ⟨rest, c.index + 2⟩
          return ('%' :: more, args)
      | '%' :: rest => do
          let (filled, args, c) ← fill args ⟨rest, c.index + 1⟩
          let (more, args) ← expandFrom steps args c
          return (filled ++ more, args)
      | ch :: rest => do
          let (more, args) ← expandFrom steps args ⟨rest, c.index + 1⟩
          return (ch :: more, args)

/-- Fills a template. Arguments by position must all be used. -/
def expand (template : String) (values : List Json) : Except Fault String := do
  let (cs, args) ← expandFrom template.length (.of values) ⟨template.toList, 0⟩
  if args.fields.isNone && !args.left.isEmpty then .error .unusedArguments
  else return String.ofList cs

end WorkflowStudio.Template
