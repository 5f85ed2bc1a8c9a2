import WorkflowStudio.Reading.Checked
import WorkflowStudio.Json.Basic
import WorkflowStudio.Decimal.Numeral
import WorkflowStudio.Text.Surrogate

/-!
Readers of single values. Texts are taken as they are, halves of surrogate pairs
included; numbers and truth values are also taken from each other and from texts
that spell them. Whatever looks into a text asks for whole characters.
-/
namespace WorkflowStudio

/-- Where a value comes from: handed over as it is, or read from a text. -/
inductive Medium where
  | value
  | text
deriving DecidableEq

namespace Json

/-- Reads a text that holds whole characters only. -/
def ofWholeText {α : Type} (read : String → Checked α) (s : String) : Checked α :=
  if Text.isBroken s then .fail .brokenText else read s

def asText : Json → Checked String
  | .str s => .ok s
  | _ => .fail .notText

def asNonemptyText (v : Json) : Checked String :=
  v.asText.andThen (ofWholeText fun s => if s.isEmpty then .fail .textTooShort else .ok s)

/-- Whole numbers taken from a real number fit into sixty-four bits. -/
def wholeOfReal (x : Double) : Checked Int :=
  if !x.isFinite then .fail .notFinite
  else if !x.isWhole then .fail .fractional
  else if -0x8000000000000000 < x.truncate ∧ x.truncate < 0x8000000000000000 then .ok x.truncate
  else .fail .wholeTooLarge

def wholeOfNumeral (s : String) : Checked Int :=
  match Numeral.whole? s with
  | .ok n => .ok n
  | .error .malformed => .fail .malformedWhole
  | .error .tooLong => .fail .wholeTooLarge

def asWhole : Json → Checked Int
  | .int n => .ok n
  | .bool b => .ok (if b then 1 else 0)
  | .num x => wholeOfReal x
  | .str s => ofWholeText wholeOfNumeral s
  | _ => .fail .notWhole

/-- A whole number beyond all real numbers is infinite when a text holds it. -/
def realOfWhole (medium : Medium) (n : Int) : Checked Double :=
  let x := Double.ofInt n
  if medium = .value && !x.isFinite then .fail .notReal else .ok x

def realOfNumeral (s : String) : Checked Double :=
  match Numeral.real? s with
  | some x => .ok x
  | none => .fail .malformedReal

def asReal (medium : Medium) : Json → Checked Double
  | .num x => .ok x
  | .int n => realOfWhole medium n
  | .bool b => .ok (Double.ofInt (if b then 1 else 0))
  | .str s => ofWholeText realOfNumeral s
  | _ => .fail .notReal

def falseWords : List String := ["0", "off", "f", "false", "n", "no"]

def trueWords : List String := ["1", "on", "t", "true", "y", "yes"]

def truthOfWhole (n : Int) : Checked Bool :=
  if n = 0 then .ok false else if n = 1 then .ok true else .fail .malformedTruth

def truthOfWord (s : String) : Checked Bool :=
  if falseWords.contains s.toLower then .ok false
  else if trueWords.contains s.toLower then .ok true
  else .fail .malformedTruth

def fitsWord (n : Int) : Bool := -0x8000000000000000 ≤ n && n < 0x8000000000000000

def asTruth : Json → Checked Bool
  | .bool b => .ok b
  | .int n => if fitsWord n then truthOfWhole n else .fail .notTruth
  | .num x => match wholeOfReal x with
      | .ok n => truthOfWhole n
      | .bad _ => .fail .notTruth
  | .str s => ofWholeText truthOfWord s
  | _ => .fail .notTruth

def asObject : Json → Checked Fields
  | .obj fs => .ok fs
  | _ => .fail .notObject

def asAny (v : Json) : Checked Json := .ok v

def asOptional {α : Type} (read : Json → Checked α) : Json → Checked (Option α)
  | .null => .ok none
  | v => some <$> read v

def asList {α : Type} (read : Json → Checked α) : Json → Checked (List α)
  | .arr items => .each read items
  | _ => .fail .notList

end Json

/-- An identifier of something stored elsewhere: a text or a whole number. -/
inductive Reference where
  | text (value : String)
  | whole (value : Int)
deriving DecidableEq, Repr

def Reference.toJson : Reference → Json
  | .text s => .str s
  | .whole n => .int n

/-- A value that is neither a text nor readable as a whole number has a problem
with each of the two. -/
def Json.asReference (v : Json) : Checked Reference :=
  match v.asText with
  | .ok s => .ok (.text s)
  | .bad textProblems => match v.asWhole with
      | .ok n => .ok (.whole n)
      | .bad problems =>
          .bad ((textProblems.map fun p => { p with places := .field "str" :: p.places }) ++
            problems.map fun p => { p with places := .field "int" :: p.places })

end WorkflowStudio
