import WorkflowStudio.Json.Access
import WorkflowStudio.Json.Key
import WorkflowStudio.Reading.Record

/-!
Fields given as an object or as a list of pairs. In a pair the name may be any
key; fields proper are named by texts only.
-/
namespace WorkflowStudio

/-- Fields whose names were not checked yet. -/
abbrev LooseFields := List (Key × Json)

namespace LooseFields

def ofFields (fs : Fields) : LooseFields := fs.map fun field => (.ofText field.1, field.2)

/-- Replaces the value of a name where it stands or adds it at the end. -/
def put (fs : LooseFields) (name : Key) (value : Json) : LooseFields :=
  match fs with
  | [] => [(name, value)]
  | field :: rest =>
      if field.1 == name then (field.1, value) :: rest else field :: put rest name value

/-- Reads pairs from the given index on into the fields so far. -/
def addPairs (fs : LooseFields) (index : Nat) : List Json → Except Fault LooseFields
  | [] => .ok fs
  | pair :: rest =>
      match pair.items? with
      | some [name, value] => do addPairs (put fs (← name.toKey) value) (index + 1) rest
      | some items => .error (.entryLength index items.length)
      | none => .error (.entryNotSequence index)

/-- Adds fields one after the other. -/
def merge (fs : LooseFields) (changes : Fields) : LooseFields :=
  changes.foldl (fun fs field => put fs (.ofText field.1) field.2) fs

/-- Adds what a value holds to the fields, be it an object or a list of pairs. -/
def addAll (fs : LooseFields) : Json → Except Fault LooseFields
  | .obj fields => .ok (merge fs fields)
  | v => match v.items? with
      | some pairs => addPairs fs 0 pairs
      | none => .error (.notIterable v)

def ofJson (v : Json) : Except Fault LooseFields := addAll [] v

/-- The fields that are named by texts. -/
def fields (fs : LooseFields) : Fields :=
  fs.filterMap fun field => match field.1.value with
    | .str name => some (name, field.2)
    | _ => none

/-- A name by the text that it is written as. -/
def nameText : Json → String
  | .str name => name
  | .bool b => if b then "true" else "false"
  | .num x => if x.isFinite then (Json.num x).display else Json.display .null
  | v => v.display

/-- All fields, each named by the text of its name. -/
def textFields (fs : LooseFields) : Fields :=
  fs.map fun field => (nameText field.1.value, field.2)

/-- The names that are no texts. -/
def oddNames (fs : LooseFields) : List Json :=
  fs.filterMap fun field => match field.1.value with
    | .str _ => none
    | name => some name

/-- The fields, if all of them are named by texts. -/
def asObject (fs : LooseFields) : Checked Fields :=
  if fs.oddNames.isEmpty then .ok fs.fields
  else .bad (fs.oddNames.map fun name => ⟨[.field name.display, .field "[key]"], .notText⟩)

/-- Reads a record from the fields; names that are no texts are further
problems. -/
def asRecord {α : Type} [Record α] (fs : LooseFields) : Checked α :=
  let value := Record.read .value (.obj fs.fields)
  if fs.oddNames.isEmpty then value
  else
    (fun a () => a) <$> value <*>
      .bad (fs.oddNames.map fun name => ⟨[.field name.display], .badKey⟩)

end LooseFields
end WorkflowStudio
