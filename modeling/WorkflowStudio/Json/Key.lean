import WorkflowStudio.Fault
import WorkflowStudio.Json.Order

/-!
Keys: single values under which things are kept. Keys that are equal as amounts
are one key.
-/
namespace WorkflowStudio

structure Key where
  value : Json
deriving DecidableEq

namespace Key

def ofText (s : String) : Key := ⟨.str s⟩

/-- Whether two keys are one. -/
def same (a b : Key) : Bool := Json.areNaN a.value b.value || Json.equal a.value b.value

instance : BEq Key := ⟨same⟩

end Key

/-- A list or an object cannot be a key. -/
def Json.toKey (v : Json) : Except Fault Key :=
  match v with
  | .arr _ => .error (.unhashable v)
  | .obj _ => .error (.unhashable v)
  | v => .ok ⟨v⟩

/-- What a table of names holds under a value of unknown kind. -/
def Json.findIn {α : Type} (find? : String → Option α) (v : Json) : Except Fault α := do
  let _ ← v.toKey
  match v with
  | .str name => match find? name with
      | some a => return a
      | none => .error (.missingKey v)
  | _ => .error (.missingKey v)

end WorkflowStudio
