import WorkflowStudio.Picker
import WorkflowStudio.Report

/-!
Completeness of single nodes: the required inputs are bound, the required
settings are filled in, and the parameters a node declares itself have keys.
-/
namespace WorkflowStudio

mutual

/-- Whether a setting says nothing: it is missing, blank, or holds only such
values. Numbers and truth values always say something. -/
def Json.isUnfilled : Json → Bool
  | .null => true
  | .str s => Text.isAllBlank s
  | .arr items => areUnfilled items
  | .obj fields => fields.isEmpty
  | _ => false

def Json.areUnfilled : List Json → Bool
  | [] => true
  | item :: rest => item.isUnfilled && areUnfilled rest

end

/-- The settings that a kind of node needs. -/
def requiredSettings : NodeType → List String
  | .llmChat => ["modelId"]
  | .intentClassifier => ["modelId", "intents"]
  | .dbQuery => ["modelId", "dataSourceId"]
  | .sqlGenerate => ["modelId", "dataSourceId"]
  | .sqlExecute => ["dataSourceId"]
  | .fixedResponse => ["content"]
  | .appInfo => ["appName", "modelId"]
  | _ => []

def settingLabel : String → String
  | "modelId" => "Model"
  | "intents" => "Intents"
  | "dataSourceId" => "Data Source"
  | "content" => "Response Content"
  | "appName" => "App Name"
  | "customResponse" => "Custom Response"
  | key => key

def missingSetting (key : String) : String := "Missing required config: " ++ settingLabel key

namespace Node

/-- The required parameters that the node has no binding for. -/
def unboundErrors (node : Node) (params : List ParamDefinition) : List String :=
  (params.filter fun p => p.required && (node.data.binding? p.key).isNone).map fun p =>
    "Missing required parameter: " ++ (if p.label.isEmpty then p.key else p.label)

/-- An end node with a response of its own needs its text in place of the
final output. -/
def hasCustomResponse (node : Node) : Bool :=
  node.nodeType == .finish &&
    ((Fields.get? node.config "isCustomResponse").map Json.isPresent).getD false

def finalOutput : String := "finalOutput"

def neededSettings (node : Node) : List String :=
  requiredSettings node.nodeType ++ (if node.hasCustomResponse then ["customResponse"] else [])

def neededInputs (node : Node) (catalog : Catalog) : List ParamDefinition :=
  let inputs := catalog.inputs node.nodeType
  if node.hasCustomResponse then inputs.filter (·.key != finalOutput) else inputs

def settingErrors (node : Node) : List String :=
  (node.neededSettings.filter fun key =>
    ((Fields.get? node.config key).getD .null).isUnfilled).map missingSetting

/-- The parameters with a blank key, counted from the given number on. -/
def keyErrorsFrom (direction : String) (number : Nat) : List ParamDefinition → List String
  | [] => []
  | param :: rest =>
      (if Text.isAllBlank param.key then
        ["Custom " ++ direction ++ " parameter #" ++ toString number ++ " has an empty key"]
       else []) ++ keyErrorsFrom direction (number + 1) rest

/-- All findings for one node. -/
def errors (node : Node) (catalog : Catalog) : List String :=
  node.unboundErrors (node.neededInputs catalog) ++ node.settingErrors ++
    keyErrorsFrom "input" 1 node.data.customInputs ++
    keyErrorsFrom "output" 1 node.data.customOutputs

def checkBindings (node : Node) (params : List ParamDefinition) : GraphReport :=
  .ofErrors (node.unboundErrors params)

end Node

namespace Catalog

def nodeReport? (catalog : Catalog) (node : Node) : Option NodeReport :=
  let errors := node.errors catalog
  if errors.isEmpty then none
  else some ⟨node.id, catalog.nodeLabel node, node.nodeType.text, errors⟩

/-- Reports every node with a finding. -/
def checkNodes (catalog : Catalog) (nodes : List Node) : WorkflowReport :=
  let reports := nodes.filterMap catalog.nodeReport?
  ⟨reports.isEmpty, reports⟩

end Catalog
end WorkflowStudio
