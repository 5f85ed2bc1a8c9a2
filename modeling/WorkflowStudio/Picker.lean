import WorkflowStudio.Catalog.Registry
import WorkflowStudio.Topology
import WorkflowStudio.TypeFit

/-!
What the inputs of a node can be bound to: the parameters declared in each
global scope, and the outputs of every node that leads to it. Bindings are
checked against these sources on request only.
-/
namespace WorkflowStudio

/-- The parameters that the application node declares in a scope. Those with an
empty key are still being edited; settings that cannot be read declare none. -/
def globalParams (appInfo : Option Node) (scope : Scope) : List ParamDefinition :=
  match appInfo.bind fun node => (AppInfoConfig.read (.obj node.config)).ok? with
  | none => []
  | some config =>
      let declared := match scope with
        | .app => config.appParams ++ config.globalParams
        | .interface => config.interfaceParams
        | .session => config.sessionParams
      declared.filter (!·.key.isEmpty)

namespace ParamSource

/-- Keeps the parameters of one declared type and drops sources without any. -/
def ofType (type : String) (sources : List ParamSource) : List ParamSource :=
  (sources.map fun source => { source with params := source.params.filter (·.type == type) }).filter
    (!·.params.isEmpty)

def named (type : SourceType) (key : String) (sources : List ParamSource) : Option ParamSource :=
  sources.find? fun source => source.type == type && source.sourceKey == key

end ParamSource

namespace ParamBinding

/-- The source that a binding points at, and the key it takes from there. -/
def findSource (b : ParamBinding) (sources : List ParamSource) : Option (ParamSource × String) :=
  match b.resolveGlobal with
  | some (scope, key) => (ParamSource.named .global scope.text sources).map (·, key)
  | none => (ParamSource.named .node b.sourceKey sources).map (·, b.sourceParam.getD "")

/-- Whether a binding refers to a parameter that is offered. -/
def isOffered (b : ParamBinding) (sources : List ParamSource) : Bool :=
  match b.findSource sources with
  | some (source, key) => !key.isEmpty && source.params.any (·.key == key)
  | none => false

/-- The text that shows where a binding takes its value from. -/
def displayText (b : ParamBinding) (nodes : List Node) : String :=
  match b.resolveGlobal with
  | some (scope, key) => scope.referenceName ++ "." ++ key
  | none =>
      let name := match nodes.find? (·.id == b.sourceKey) with
        | some node => node.displayName
        | none => b.sourceKey
      name ++ "." ++ b.sourceParam.getD ""

/-- How the source of a binding fits an input; a source that is not offered is
taken to fit. -/
def fit (b : ParamBinding) (target : ParamDefinition) (sources : List ParamSource) : Fit :=
  match b.findSource sources with
  | some (source, key) => match source.params.find? (·.key == key) with
      | some param => TypeFit.checkNames param.type target.type
      | none => .compatible
  | none => .compatible

end ParamBinding

namespace Catalog

/-- The outputs of a node: those of its kind, and its own where the kind allows
them. -/
def nodeOutputs (c : Catalog) (node : Node) : List ParamDefinition :=
  c.outputs node.nodeType ++
    (if c.allowsCustomOutputs node.nodeType then node.data.customOutputs.filter (!·.key.isEmpty)
     else [])

def nodeInputs (c : Catalog) (node : Node) : List ParamDefinition :=
  c.inputs node.nodeType ++
    (if c.allowsCustomInputs node.nodeType then node.data.customInputs.filter (!·.key.isEmpty)
     else [])

/-- The label of a node, or the label of its kind. -/
def nodeLabel (c : Catalog) (node : Node) : String :=
  if node.data.label.isEmpty then c.label node.nodeType else node.data.label

/-- One source for each scope that declares a parameter. -/
def globalSources (nodes : List Node) : List ParamSource :=
  let appInfo := nodes.find? Node.isAppInfo
  (Vocabulary.words : List Scope).filterMap fun scope =>
    let params := globalParams appInfo scope
    if params.isEmpty then none else some ⟨.global, scope.text, scope.heading, params⟩

def nodeSource (c : Catalog) (node : Node) : Option ParamSource :=
  let params := c.nodeOutputs node
  if params.isEmpty then none else some ⟨.node, node.id, c.nodeLabel node, params⟩

/-- Everything the inputs of a node can be bound to. -/
def availableSources (c : Catalog) (id : String) (nodes : List Node) (edges : List Edge) :
    List ParamSource :=
  globalSources nodes ++ (feedingNodes id nodes edges).filterMap c.nodeSource

end Catalog
end WorkflowStudio
