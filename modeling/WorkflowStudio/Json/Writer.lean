import WorkflowStudio.Json.Basic
import WorkflowStudio.Decimal.Layout
import WorkflowStudio.Text.Quoted

/-!
Writing JSON text. A style fixes the gaps after the marks, the characters that
are escaped and the layout of numbers; the fields of an object are written in
their order.
-/
namespace WorkflowStudio.Json

structure Style where
  comma : String
  colon : String
  asciiOnly : Bool
  numbers : Decimal.Layout

/-- The style of stored texts. -/
def compact : Style := ⟨",", ":", false, Decimal.stored⟩

/-- The style of log records. -/
def spaced : Style := ⟨", ", ": ", false, Decimal.logged⟩

/-- The style of values inside a log line. -/
def spacedAscii : Style := ⟨", ", ": ", true, Decimal.logged⟩

def unitEscape (unit : Nat) : List Char := '\\' :: 'u' :: Text.hexDigits 4 unit

/-- Characters beyond the first plane are escaped as a surrogate pair. -/
def codeEscape (n : Nat) : List Char :=
  if n < 0x10000 then unitEscape n
  else unitEscape (0xd800 + (n - 0x10000) / 0x400) ++ unitEscape (0xdc00 + (n - 0x10000) % 0x400)

def escapeChar (asciiOnly : Bool) (c : Char) : List Char :=
  if c = '"' then ['\\', '"']
  else if c = '\\' then ['\\', '\\']
  else if c = '\n' then ['\\', 'n']
  else if c = '\r' then ['\\', 'r']
  else if c = '\t' then ['\\', 't']
  else if c.toNat = 0x8 then ['\\', 'b']
  else if c.toNat = 0xc then ['\\', 'f']
  else if c.toNat < 0x20 then unitEscape c.toNat
  else if asciiOnly && 0x7f ≤ c.toNat then codeEscape ((Text.half? c).getD c.toNat)
  else [c]

def writeString (asciiOnly : Bool) (s : String) : List Char :=
  '"' :: (s.toList.flatMap (escapeChar asciiOnly) ++ ['"'])

mutual

def write (style : Style) : Json → List Char
  | .null => "null".toList
  | .bool b => if b then "true".toList else "false".toList
  | .int n => (Decimal.intText n).toList
  | .num x => (style.numbers.text x).toList
  | .str s => writeString style.asciiOnly s
  | .arr items => '[' :: (writeItems style items ++ [']'])
  | .obj fields => '{' :: (writeFields style fields ++ ['}'])

def writeItems (style : Style) : List Json → List Char
  | [] => []
  | [item] => write style item
  | item :: rest => write style item ++ style.comma.toList ++ writeItems style rest

def writeFields (style : Style) : List (String × Json) → List Char
  | [] => []
  | [(name, value)] =>
      writeString style.asciiOnly name ++ style.colon.toList ++ write style value
  | (name, value) :: rest =>
      writeString style.asciiOnly name ++ style.colon.toList ++ write style value ++
        style.comma.toList ++ writeFields style rest

end

def text (style : Style) (value : Json) : String := String.ofList (write style value)

end WorkflowStudio.Json
