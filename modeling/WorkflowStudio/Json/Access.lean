import WorkflowStudio.Json.Basic

/-!
Access to values of unknown shape. Each step fails on a value of another kind.
-/
namespace WorkflowStudio.Json

/-- The items of a list, the characters of a text or the names of an object. -/
def items? : Json → Option (List Json)
  | .arr items => some items
  | .str s => some (s.toList.map fun c => .str c.toString)
  | .obj fields => some (fields.map fun field => .str field.1)
  | _ => none

def text? : Json → Option String
  | .str s => some s
  | _ => none

/-- A text that may be left out. -/
def optionalText? : Json → Option (Option String)
  | .null => some none
  | .str s => some (some s)
  | _ => none

/-- A field of an object; one that is missing is null. -/
def look (v : Json) (name : String) : Option Json :=
  match v with
  | .obj fields => some ((Fields.get? fields name).getD .null)
  | _ => none

/-- The second value stands in for a first one that is not present. -/
def orElse (v other : Json) : Json := if v.isPresent then v else other

/-- The fields of an object; a value that is not present has none. -/
def optionalFields? : Json → Option Fields
  | .obj fields => some fields
  | v => if v.isPresent then none else some []

def lookObject (v : Json) (name : String) : Option Json :=
  (v.look name).map fun found => found.orElse (.obj [])

def lookList (v : Json) (name : String) : Option Json :=
  (v.look name).map fun found => found.orElse (.arr [])

end WorkflowStudio.Json
