import WorkflowStudio.Graph
import WorkflowStudio.Guard
import WorkflowStudio.Json.Pairs

/-!
Nodes and edges whose fields were assigned from outside. An assignment is not
checked, so that a field may hold a value of another kind than declared; only the
id and the kind of a node cannot be assigned. Names that are no fields are kept as
extra fields, apart from those that hide something that the record itself can do.
-/
namespace WorkflowStudio

/-- What a field holds: a value of its declared kind, or any other one. -/
inductive Slot (α : Type) where
  | held (value : α)
  | stray (value : Json)

namespace Slot

variable {α : Type}

def write (f : α → Json) : Slot α → Json
  | held a => f a
  | stray v => v.finite

def parts (f : α → List Json) : Slot α → List Json
  | held a => f a
  | stray v => [v]

/-- The items of a list of records. A stray value is one only where it is empty,
since its items have no fields. -/
def items (field : String) : Slot (List α) → Except Fault (List α)
  | held items => .ok items
  | stray v => match v.items? with
      | none => .error (.notIterable v)
      | some [] => .ok []
      | some (item :: _) => .error (.noAttribute item field)

end Slot

/-- Names that every record has a use for. -/
def recordNames : List String :=
  ["construct", "copy", "dict", "from_orm", "json", "model_computed_fields", "model_config",
   "model_construct", "model_copy", "model_dump", "model_dump_json", "model_fields",
   "model_json_schema", "model_parametrized_name", "model_post_init", "model_rebuild",
   "model_validate", "model_validate_json", "model_validate_strings", "mro", "parse_file",
   "parse_obj", "parse_raw", "register", "schema", "schema_json", "to_wire",
   "update_forward_refs", "validate"]

/-- Names that a record derives and that cannot be assigned. -/
def derivedNames : List String := ["model_extra", "model_fields_set"]

/-- What assignments add to the declared fields of a record. -/
structure Additions where
  extras : Fields
  /-- Values that hide what stands behind their names. -/
  hidden : Fields

namespace Additions

def ofExtras (extras : Fields) : Additions := ⟨extras, []⟩

/-- Assigns a name that is no field. -/
def assign (a : Additions) (title : String) (derived own : List String) (name : String)
    (value : Json) : Except Fault Additions :=
  if (derivedNames ++ derived).contains name then .error (.unsettable title name)
  else if name.startsWith "_" || (recordNames ++ own).contains name then
    .ok { a with hidden := a.hidden.insert name value }
  else .ok { a with extras := a.extras.insert name value }

/-- Using what a value hides is a fault. -/
def use (a : Additions) (name : String) : Except Fault Unit :=
  match a.hidden.get? name with
  | some v => .error (.notCallable v)
  | none => .ok ()

def parts (a : Additions) : List Json := a.extras.parts

end Additions

structure LooseData where
  id : Json
  nodeType : NodeType
  label : Json
  config : Slot LooseFields
  status : Json
  bindings : Slot (List ParamBinding)
  customInputs : Slot (List ParamDefinition)
  customOutputs : Slot (List ParamDefinition)
  additions : Additions

namespace LooseData

def ofData (d : NodeData) : LooseData where
  id := Json.ofOption .str d.id
  nodeType := d.nodeType
  label := .str d.label
  config := .held (LooseFields.ofFields d.config)
  status := .str d.status.text
  bindings := .held d.bindings
  customInputs := .held d.customInputs
  customOutputs := .held d.customOutputs
  additions := .ofExtras d.extras

def settingsOf : Json → Slot LooseFields
  | .obj fields => .held (LooseFields.ofFields fields)
  | v => .stray v

def assign (d : LooseData) (name : String) (value : Json) : Except Fault LooseData :=
  match name with
  | "id" => .ok { d with id := value }
  | "node_type" => .error (.invalid (Record.title NodeData) [⟨[.field name], .frozen⟩])
  | "node_label" => .ok { d with label := value }
  | "config" => .ok { d with config := settingsOf value }
  | "status" => .ok { d with status := value }
  | "param_bindings" => .ok { d with bindings := .stray value }
  | "custom_input_params" => .ok { d with customInputs := .stray value }
  | "custom_output_params" => .ok { d with customOutputs := .stray value }
  | _ => (d.additions.assign (Record.title NodeData) [] ["get_binding"] name value).map
      fun additions => { d with additions := additions }

/-- The full form. A name may stand in it twice; the last one counts. -/
def write (d : LooseData) : Json :=
  .obj ([("id", d.id.finite), ("nodeType", .str d.nodeType.text), ("nodeLabel", d.label.finite),
    ("config", d.config.write fun fs => .obj (Json.finiteFields fs.textFields)),
    ("status", d.status.finite),
    ("paramBindings", d.bindings.write fun bs => .arr (bs.map (ParamBinding.write .kept))),
    ("customInputParams",
      d.customInputs.write fun ps => .arr (ps.map (ParamDefinition.write .kept))),
    ("customOutputParams",
      d.customOutputs.write fun ps => .arr (ps.map (ParamDefinition.write .kept)))] ++
    Json.finiteFields d.additions.extras)

def parts (d : LooseData) : List Json :=
  [d.id, d.label] ++ d.config.parts (·.textFields.parts) ++ [d.status] ++
    d.bindings.parts (·.flatMap Record.parts) ++ d.customInputs.parts (·.flatMap Record.parts) ++
    d.customOutputs.parts (·.flatMap Record.parts) ++ d.additions.parts

/-- The settings as those of an intent classifier, when they can be read. -/
def intentConfig? (d : LooseData) : Option IntentConfig :=
  match d.config with
  | .held fs => (fs.asObject.andThen fun fields => IntentConfig.read (.obj fields)).ok?
  | .stray v => (IntentConfig.read v).ok?

end LooseData

structure LooseNode where
  id : String
  type : Json
  position : Slot Position
  data : LooseData
  additions : Additions

namespace LooseNode

def ofNode (n : Node) : LooseNode :=
  ⟨n.id, .str n.type, .held n.position, .ofData n.data, .ofExtras n.extras⟩

/-- What a node derives from its fields. -/
def derived : List String := ["node_type", "config", "display_name"]

def assign (n : LooseNode) (name : String) (value : Json) : Except Fault LooseNode :=
  match name with
  | "id" => .error (.invalid (Record.title Node) [⟨[.field name], .frozen⟩])
  | "type" => .ok { n with type := value }
  | "position" => .ok { n with position := .stray value }
  | _ => (n.additions.assign (Record.title Node) derived ["fill_data_id"] name value).map
      fun additions => { n with additions := additions }

/-- Gives the payload the id of its node when it has none. -/
def fillDataId (n : LooseNode) : LooseNode :=
  if n.data.id == .null then { n with data := { n.data with id := .str n.id } } else n

def write (n : LooseNode) : Json :=
  .obj ([("id", .str n.id), ("type", n.type.finite),
    ("position", n.position.write (Position.write .kept)), ("data", n.data.write)] ++
    Json.finiteFields n.additions.extras)

def parts (n : LooseNode) : List Json :=
  [.str n.id, n.type] ++ n.position.parts (fun _ => []) ++ n.data.parts ++ n.additions.parts

def nodeType (n : LooseNode) : NodeType := n.data.nodeType

def isAppInfo (n : LooseNode) : Bool := n.nodeType == .appInfo

/-- The text of the label, or the id when there is no label. -/
def displayName (n : LooseNode) : String :=
  if n.data.label.isPresent then n.data.label.display else n.id

end LooseNode

structure LooseEdge where
  id : Json
  source : Json
  target : Json
  sourceHandle : Json
  targetHandle : Json
  label : Json
  condition : Json
  additions : Additions

namespace LooseEdge

def ofEdge (e : Edge) : LooseEdge :=
  ⟨.str e.id, .str e.source, .str e.target, Json.ofOption .str e.sourceHandle,
   Json.ofOption .str e.targetHandle, Json.ofOption .str e.label,
   Json.ofOption .str e.condition, .ofExtras e.extras⟩

def assign (e : LooseEdge) (name : String) (value : Json) : Except Fault LooseEdge :=
  match name with
  | "id" => .ok { e with id := value }
  | "source" => .ok { e with source := value }
  | "target" => .ok { e with target := value }
  | "source_handle" => .ok { e with sourceHandle := value }
  | "target_handle" => .ok { e with targetHandle := value }
  | "label" => .ok { e with label := value }
  | "condition" => .ok { e with condition := value }
  | _ => (e.additions.assign (Record.title Edge) [] ["lift_legacy_condition", "derive_id"] name
      value).map fun additions => { e with additions := additions }

def deriveId (e : LooseEdge) : LooseEdge :=
  if e.id.isPresent then e
  else { e with id := .str (edgeIdOf e.source e.sourceHandle e.target) }

def fields (e : LooseEdge) : Fields :=
  [("id", e.id), ("source", e.source), ("target", e.target), ("sourceHandle", e.sourceHandle),
   ("targetHandle", e.targetHandle), ("label", e.label), ("condition", e.condition)]

def write (e : LooseEdge) : Json := .obj (Json.finiteFields (e.fields ++ e.additions.extras))

def parts (e : LooseEdge) : List Json := e.fields.values ++ e.additions.parts

/-- The handle an edge leaves through; one that is not present is an empty one. -/
def handle (e : LooseEdge) : Json := e.sourceHandle.orElse (.str "")

end LooseEdge
end WorkflowStudio
