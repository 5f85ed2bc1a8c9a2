import WorkflowStudio.Json.Key

/-!
Scopes that attach context to the records made inside of them. A scope remembers
the contexts that were active when it was created. Entering it makes these and
its own active, and leaving it makes these active again, whatever was active in
between.
-/
namespace WorkflowStudio

/-- Contexts from the innermost outwards. -/
abbrev ActiveContexts := List Fields

/-- What records are given: nothing outside of all scopes, else the fields of
all contexts, of which the inner ones win. -/
def ActiveContexts.merged : ActiveContexts → Option Fields
  | [] => none
  | inner :: outer => some (Fields.merge (ActiveContexts.merged outer |>.getD []) inner)

structure LogScope where
  context : Fields
  remembered : ActiveContexts

namespace LogScope

/-- Names that a context cannot have. -/
def reservedNames : List String := ["self", "logger"]

def create (active : ActiveContexts) (context : Fields) : Except Fault LogScope :=
  match context.find? fun field => reservedNames.contains field.1 with
  | some (name, _) => .error (.nameReserved "LogContext.__init__" name)
  | none => .ok ⟨context, active⟩

def enter (scope : LogScope) : ActiveContexts := scope.context :: scope.remembered

def exit (scope : LogScope) : ActiveContexts := scope.remembered

end LogScope

/-- A run of scopes: those created so far by name, and the active contexts. -/
structure ScopedRun where
  scopes : List (Key × LogScope)
  active : ActiveContexts

inductive ScopeStep where
  | create (name : Json) (context : Fields)
  | enter (name : Json)
  | exit (name : Json)
  /-- Makes a record, to which the caller may attach a context of its own. -/
  | log (message : Json) (context : Option Json)

/-- What a step of a run of scopes answers. -/
inductive ScopeAnswer where
  | created
  | entered
  | left
  | logged (message : String) (context : Option Json)

namespace ScopedRun

def start : ScopedRun := ⟨[], []⟩

def scope (r : ScopedRun) (name : Json) : Except Fault LogScope := do
  let key ← name.toKey
  match r.scopes.find? fun entry => entry.1 == key with
  | some (_, scope) => return scope
  | none => .error (.missingKey name)

/-- The context of a new record. A caller cannot replace that of a scope. -/
def contextFor (r : ScopedRun) (own : Option Json) : Except Fault (Option Json) :=
  match r.active.merged, own with
  | some _, some _ => .error .contextTaken
  | some fields, none => .ok (some (.obj fields))
  | none, own => .ok own

def step (r : ScopedRun) : ScopeStep → Except Fault (ScopedRun × ScopeAnswer)
  | .create name context => do
      let scope ← LogScope.create r.active context
      return ({ r with scopes := (← name.toKey, scope) :: r.scopes }, .created)
  | .enter name => do return ({ r with active := (← r.scope name).enter }, .entered)
  | .exit name => do return ({ r with active := (← r.scope name).exit }, .left)
  | .log message own => do return (r, .logged message.display (← r.contextFor own))

/-- Performs steps one after the other; a step that fails changes nothing. -/
def answers (r : ScopedRun) : List ScopeStep → List (Except Fault ScopeAnswer)
  | [] => []
  | step :: rest => match r.step step with
      | .ok (next, answer) => .ok answer :: answers next rest
      | .error fault => .error fault :: answers r rest

end ScopedRun
end WorkflowStudio
