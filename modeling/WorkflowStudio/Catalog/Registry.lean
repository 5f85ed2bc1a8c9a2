import WorkflowStudio.Catalog.BuiltIn
import WorkflowStudio.ConnectionRules
import WorkflowStudio.Json.Shown

/-!
The catalog of node kinds. A registry replaces the built-in definitions of the
kinds it describes well; entries of it that cannot be read are passed over with a
warning that names their kind.
-/
namespace WorkflowStudio

structure Catalog where
  /-- At most one definition for each kind. -/
  definitions : List NodeDefinition
  rules : RuleTable

namespace Catalog

/-- Replaces the definition of its kind where it stands or adds it at the end. -/
def put (definitions : List NodeDefinition) (d : NodeDefinition) : List NodeDefinition :=
  match definitions with
  | [] => [d]
  | other :: rest => if other.nodeType = d.nodeType then d :: rest else other :: put rest d

def ofDefinitions (definitions : List NodeDefinition) (rules : RuleTable) : Catalog :=
  ⟨definitions.foldl put [], rules⟩

def builtIn : Catalog := ofDefinitions NodeDefinition.builtIn []

/-- The kind of a registry entry that cannot be read, named in the warning about it. An
entry that is no object has no kind to be named. -/
def warn (room : Nat) : Json → Except Fault Unit
  | .obj fields => match Json.nameFault? room ((Fields.get? fields "nodeType").getD .null) with
      | some fault => .error fault
      | none => .ok ()
  | v => .error (.noAttribute v "get")

/-- Adds the registry entries that can be read and warns of the others. -/
def addEntries (room : Nat) (definitions : List NodeDefinition) :
    List Json → Except Fault (List NodeDefinition)
  | [] => .ok definitions
  | entry :: rest =>
      match NodeDefinition.read entry with
      | .ok d => addEntries room (put definitions d) rest
      | .bad _ => match warn room entry with
          | .ok _ => addEntries room definitions rest
          | .error fault => .error fault

/-- Loads a registry with some room to name a value in; a list that is not present has
no entries. -/
def ofRegistryWithin (room : Nat) (entries rules : Json) : Except Fault Catalog := do
  let entries ← if entries.isPresent then entries.elements else .ok []
  let definitions ← addEntries room NodeDefinition.builtIn entries
  let rules ← RuleTable.ofJson rules
  return ofDefinitions definitions rules

/-- The room there usually is to name a value in. -/
def standardRoom : Nat := 1000

def ofRegistry : Json → Json → Except Fault Catalog := ofRegistryWithin standardRoom

def definition? (c : Catalog) (t : NodeType) : Option NodeDefinition :=
  c.definitions.find? fun d => d.nodeType == t

def inputs (c : Catalog) (t : NodeType) : List ParamDefinition :=
  ((c.definition? t).map (·.inputs)).getD []

def outputs (c : Catalog) (t : NodeType) : List ParamDefinition :=
  ((c.definition? t).map (·.outputs)).getD []

def allowsCustomInputs (c : Catalog) (t : NodeType) : Bool :=
  ((c.definition? t).map (·.allowsCustomInputs)).getD false

def allowsCustomOutputs (c : Catalog) (t : NodeType) : Bool :=
  ((c.definition? t).map (·.allowsCustomOutputs)).getD false

/-- The palette label of a kind, or the name of the kind. -/
def label (c : Catalog) (t : NodeType) : String :=
  ((c.definition? t).map (·.label)).getD t.text

/-- The fields that a new node of a kind is shown with. -/
def presentation (c : Catalog) (t : NodeType) : Fields :=
  match c.definition? t with
  | none => []
  | some d =>
      [("nodeIcon", d.icon), ("nodeColor", d.color), ("description", d.description)].filterMap
        fun field => field.2.map fun value => (field.1, .str value)

def summary (c : Catalog) : String :=
  "NodeCatalog(definitions=" ++ toString c.definitions.length ++ ", rules=" ++
    toString c.rules.length ++ ")"

end Catalog
end WorkflowStudio
