import WorkflowStudio.Document.Basic
import WorkflowStudio.Expression
import WorkflowStudio.Grid
import WorkflowStudio.Guard

/-!
Rebuilding a graph from a document. Nodes are laid out on a grid, expressions
become bindings and other inputs are dropped. A guard gives back the handle it
was derived from; without one the edge loses its guard.
-/
namespace WorkflowStudio

def recoverBindings (inputs : Fields) : List ParamBinding :=
  inputs.filterMap fun field => Expression.toBinding field.1 field.2

/-- A kind that is not known is taken for a chat node. -/
def DocumentNode.nodeType (n : DocumentNode) : NodeType := (Vocabulary.find? n.type).getD .llmChat

/-- The node of a document at a position; its id must be one that a node can have. -/
def DocumentNode.toNode (n : DocumentNode) (position : Position) : Except Fault Node := do
  let id ← Node.checkId n.id
  return {
    id := id
    type := "custom"
    position := position
    data := {
      id := some id
      nodeType := n.nodeType
      label := n.name
      config := n.config
      status := .idle
      bindings := recoverBindings n.inputs
      customInputs := []
      customOutputs := []
      extras := [] }
    extras := [] }

namespace Document

/-- The nodes from the given index on; the first one that is rejected counts. -/
def nodesFrom (grid : Grid) (total index : Nat) : List DocumentNode → Except Fault (List Node)
  | [] => .ok []
  | n :: rest => do
      let node ← n.toNode (← grid.cell (.int index) (.int total))
      return node :: (← nodesFrom grid total (index + 1) rest)

def toEdge (nodes : List Node) (e : DocumentEdge) : Except Fault Edge := do
  let source := Graph.lastNode? nodes e.source
  let handle := Guard.recoverHandle source e.condition
  let condition ← match source, handle with
    | some node, some handle => Guard.derive node (some handle)
    | _, _ => .ok none
  return ⟨edgeId e.source handle e.target, e.source, e.target, handle, none, none, condition, []⟩

/-- The rebuilt edges; of edges with one id the first is kept. -/
def toEdges (nodes : List Node) (seen : List String) :
    List DocumentEdge → Except Fault (List Edge)
  | [] => .ok []
  | e :: rest => do
      let edge ← toEdge nodes e
      if seen.contains edge.id then toEdges nodes seen rest
      else return edge :: (← toEdges nodes (edge.id :: seen) rest)

def toGraph (d : Document) (grid : Grid) : Except Fault Graph := do
  let nodes ← nodesFrom grid d.nodes.length 0 d.nodes
  return ⟨nodes, ← toEdges nodes [] d.edges⟩

end Document
end WorkflowStudio
