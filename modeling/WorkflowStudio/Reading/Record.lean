import WorkflowStudio.Fault
import WorkflowStudio.Reading.Scalar
import WorkflowStudio.Json.Depth
import WorkflowStudio.Json.Reader
import WorkflowStudio.Json.Writer

/-!
Reading and writing records. A field is found under the first of its names that
is present. Names that no field was read from are either dropped or kept as
extra fields in their order.
-/
namespace WorkflowStudio

/-- What becomes of fields without a value when a record is written. -/
inductive Nulls where
  | kept
  | dropped
deriving DecidableEq

namespace Fields

/-- The first name that is present, with its value. -/
def pick (fs : Fields) : List String → Option (String × Json)
  | [] => none
  | name :: names => match fs.get? name with
      | some v => some (name, v)
      | none => pick fs names

def label (names : List String) : String := names.headD ""

def required {α : Type} (fs : Fields) (names : List String) (read : Json → Checked α) :
    Checked α :=
  match fs.pick names with
  | some (name, v) => (read v).inside (.field name)
  | none => (Checked.fail .missing).inside (.field (label names))

def optional {α : Type} (fs : Fields) (names : List String) (absent : α)
    (read : Json → Checked α) : Checked α :=
  match fs.pick names with
  | some (name, v) => (read v).inside (.field name)
  | none => .ok absent

/-- The fields that none of the given name lists was read from. -/
def extras (fs : Fields) (slots : List (List String)) : Fields :=
  fs.filter fun field => !slots.any fun names => (fs.pick names).map (·.1) == some field.1

/-- What is written of fields of any names: each name and the value behind it. -/
def parts (fs : Fields) : List Json := fs.flatMap fun field => [.str field.1, field.2]

end Fields

namespace Json

/-- The value that a stored text holds. -/
def ofText (text : String) : Checked Json :=
  if Text.isBroken text then .fail .brokenText
  else match read? strict text with
    | some v => .ok v
    | none => .fail .malformedJson

/-- The value held by what should be a stored text. -/
def ofStored : Json → Checked Json
  | .str text => ofText text
  | _ => .fail .notJson

end Json

def Json.asRecord {α : Type} (read : Fields → Checked α) : Json → Checked α
  | .obj fs => read fs
  | _ => .fail .notRecord

namespace Entry

/-- An untyped value; numbers that are not finite are written as null. -/
def untyped (name : String) (v : Json) : String × Option Json :=
  (name, if v == .null then none else some v.finite)

def always (name : String) (v : Json) : String × Option Json := (name, some v)

def text (name value : String) : String × Option Json := (name, some (.str value))

def optionalText (name : String) (value : Option String) : String × Option Json :=
  (name, value.map .str)

def optional {α : Type} (name : String) (f : α → Json) (value : Option α) :
    String × Option Json :=
  (name, value.map f)

def extra (field : String × Json) : String × Option Json := untyped field.1 field.2

end Entry

/-- Writes the entries of a record; an entry without a value is null or left out. -/
def writeRecord (nulls : Nulls) (entries : List (String × Option Json)) : Json :=
  .obj (match nulls with
    | .kept => entries.map fun e => (e.1, e.2.getD .null)
    | .dropped => entries.filterMap fun e => e.2.map (e.1, ·))

/-- A kind of record with its name, reader and writer. Its parts are the texts and
the values of no declared kind in it, in the order in which they are written. -/
class Record (α : Type) where
  title : String
  read : Medium → Json → Checked α
  write : Nulls → α → Json
  parts : α → List Json

namespace Record

variable {α : Type} [Record α]

def readText (text : String) : Checked α := (Json.ofText text).andThen (read .text)

/-- The stored text of a record, with its nulls. -/
def storedText (a : α) : String := Json.text Json.compact (write .kept a)

def wire (a : α) : Json := write .dropped a

/-- The depth to which a value of no declared kind is written. -/
def deepest : Nat := 255

def isTooDeep (a : α) : Bool := (parts a).any (Json.exceeds deepest)

/-- A record can be written as a value when no value in it nests too deep. -/
def checkValue (a : α) : Except Fault Unit :=
  if isTooDeep a then .error (.tooDeep false) else .ok ()

/-- What keeps a value from being written in a text. -/
def textFault? (v : Json) : Option Fault :=
  if v.exceeds deepest then some (.tooDeep true) else v.brokenText?.map .brokenText

/-- A record can be written as a text when all parts of it can. -/
def checkText (a : α) : Except Fault Unit :=
  match (parts a).findSome? textFault? with
  | some fault => .error fault
  | none => .ok ()

/-- The full form of a record, with its nulls. -/
def dump (a : α) : Except Fault Json := (checkValue a).map fun _ => write .kept a

/-- The form of a record without nulls. -/
def exported (a : α) : Except Fault Json := (checkValue a).map fun _ => wire a

/-- The stored text of a record that can be written. -/
def stored (a : α) : Except Fault String := (checkText a).map fun _ => storedText a

end Record
end WorkflowStudio
