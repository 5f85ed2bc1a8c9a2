import WorkflowStudio.Document.Basic
import WorkflowStudio.Expression
import WorkflowStudio.Graph

/-!
Exporting a graph as a document. The application node and all edges that do not
join two nodes of the flow are left out, settings are copied, and each binding
becomes the expression of its source.
-/
namespace WorkflowStudio

/-- The expressions of the complete bindings by input. A later binding of an
input replaces the value in the place of the first one. -/
def renderInputs (bindings : List ParamBinding) : Fields :=
  Fields.ofPairs (bindings.filterMap fun b =>
    (Expression.ofBinding b).map fun expression => (b.paramKey, .str expression))

def Node.toDocument (node : Node) : DocumentNode :=
  ⟨node.id, node.nodeType.text, node.displayName, node.config, renderInputs node.data.bindings⟩

/-- The guard of an edge; a label stands in for it unless the label is empty. -/
def Edge.guardText (edge : Edge) : Option String :=
  match edge.label with
  | some label => if label.isEmpty then edge.condition else some label
  | none => edge.condition

def Edge.toDocument (edge : Edge) : DocumentEdge := ⟨edge.source, edge.target, edge.guardText⟩

namespace Graph

/-- The first start node of the flow, or its first node. -/
def entryPoint (flow : List Node) : String :=
  match flow.find? (·.nodeType == .start), flow.head? with
  | some node, _ => node.id
  | none, some node => node.id
  | none, none => "start"

/-- The entry point is told by the kinds and the ids of nodes. -/
theorem entryPoint_congr {flow others : List Node}
    (h : flow.map (fun n => (n.nodeType, n.id)) = others.map fun n => (n.nodeType, n.id)) :
    entryPoint flow = entryPoint others := by
  have hkinds (nodes : List Node) : entryPoint nodes =
      (((nodes.map fun n => (n.nodeType, n.id)).find? (·.1 == .start)).or
        (nodes.map fun n => (n.nodeType, n.id)).head?).elim "start" (·.2) := by
    have hstart : (nodes.map fun n => (n.nodeType, n.id)).find? (·.1 == .start) =
        (nodes.find? (·.nodeType == .start)).map fun n => (n.nodeType, n.id) := List.find?_map
    rw [hstart, List.head?_map, entryPoint]
    cases nodes.find? (·.nodeType == .start) <;> cases nodes.head? <;> rfl
  rw [hkinds, hkinds, h]

/-- The edges that join two nodes of the flow. -/
def flowEdges (g : Graph) : List Edge :=
  let ids := g.flowNodes.map (·.id)
  g.edges.filter fun edge => ids.contains edge.source && ids.contains edge.target

def toDocument (g : Graph) (heading : Heading) : Document where
  workflowId := heading.workflowId
  name := heading.name
  entryPoint := entryPoint g.flowNodes
  nodes := g.flowNodes.map Node.toDocument
  edges := g.flowEdges.map Edge.toDocument

end Graph
end WorkflowStudio
