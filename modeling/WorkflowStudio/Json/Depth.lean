import WorkflowStudio.Json.Basic
import WorkflowStudio.Text.Surrogate

/-!
What may keep a value from being written: lists and objects that nest too deep,
and texts that hold half a surrogate pair.
-/
namespace WorkflowStudio.Json

mutual

/-- Whether a value nests deeper than a bound. A value with nothing inside has a
depth of one. -/
def exceeds : Nat → Json → Bool
  | 0, _ => true
  | bound + 1, .arr items => exceedsItems bound items
  | bound + 1, .obj fields => exceedsFields bound fields
  | _ + 1, _ => false

def exceedsItems (bound : Nat) : List Json → Bool
  | [] => false
  | v :: rest => exceeds bound v || exceedsItems bound rest

def exceedsFields (bound : Nat) : List (String × Json) → Bool
  | [] => false
  | field :: rest => exceeds bound field.2 || exceedsFields bound rest

end

def broken? (s : String) : Option String := if Text.isBroken s then some s else none

mutual

/-- The first text that holds half a surrogate pair. -/
def brokenText? : Json → Option String
  | .str s => broken? s
  | .arr items => brokenItem? items
  | .obj fields => brokenField? fields
  | _ => none

def brokenItem? : List Json → Option String
  | [] => none
  | v :: rest => (brokenText? v).orElse fun _ => brokenItem? rest

def brokenField? : List (String × Json) → Option String
  | [] => none
  | field :: rest =>
      ((broken? field.1).orElse fun _ => brokenText? field.2).orElse fun _ => brokenField? rest

end

end WorkflowStudio.Json
