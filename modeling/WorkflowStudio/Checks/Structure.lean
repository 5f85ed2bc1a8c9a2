import WorkflowStudio.Topology
import WorkflowStudio.Report

/-!
Structural checks of a graph: it has exactly one start node, exactly one node
that no edge leaves, which is an end node, and no edge with a missing endpoint.
The application node is no part of the flow.
-/
namespace WorkflowStudio.Graph

def emptyIssues (flow : List Node) : List Issue :=
  if flow.isEmpty then [⟨.emptyGraph, "Workflow must contain at least one node", [], []⟩] else []

def startIssues (flow : List Node) : List Issue :=
  let starts := flow.filter (·.nodeType == .start)
  match starts with
  | [] => [⟨.noStartNode, "Workflow must contain a start node", [], []⟩]
  | [_] => []
  | _ =>
      [⟨.multipleStartNodes,
        "Workflow must contain exactly one start node, found " ++ toString starts.length,
        starts.map (·.id), []⟩]

/-- The nodes of the flow that no edge leaves. -/
def terminalNodes (flow : List Node) (edges : List Edge) : List Node :=
  let terminals := (Topology.ofGraph flow edges).terminals
  flow.filter fun node => terminals.contains node.id

def terminalIssues (flow : List Node) (edges : List Edge) : List Issue :=
  let terminals := terminalNodes flow edges
  match terminals with
  | [] =>
      [⟨.noTerminalNode,
        "Workflow must have a terminal end node with no outgoing connection", [], []⟩]
  | [node] =>
      if node.nodeType = .finish then []
      else
        [⟨.invalidTerminalNode,
          "Terminal node " ++ node.displayName ++ " must be an end node", [node.id], []⟩]
  | _ =>
      [⟨.multipleTerminalNodes,
        "Workflow must have exactly one terminal node, found " ++ toString terminals.length ++
          ": " ++ ", ".intercalate (terminals.map Node.displayName),
        terminals.map (·.id), []⟩]

def endIssues (flow : List Node) (edges : List Edge) : List Issue :=
  flow.filterMap fun node =>
    let outgoing := edges.filter (·.source == node.id)
    if node.nodeType = .finish ∧ !outgoing.isEmpty then
      some ⟨.endHasOutgoingEdge,
        "End node " ++ node.displayName ++ " must not have outgoing connections",
        [node.id], outgoing.map (·.id)⟩
    else none

def missingEndpoint (index : Nat) (role id : String) : String :=
  "Edge " ++ toString index ++ ": " ++ role ++ " node " ++ id ++ " does not exist"

/-- The missing endpoints of the edges from the given index on. -/
def danglingFrom (ids : List String) (index : Nat) : List Edge → List Issue
  | [] => []
  | edge :: rest =>
      (if ids.contains edge.source then []
       else [⟨.danglingEdgeSource, missingEndpoint index "source" edge.source, [], [edge.id]⟩]) ++
      (if ids.contains edge.target then []
       else [⟨.danglingEdgeTarget, missingEndpoint index "target" edge.target, [], [edge.id]⟩]) ++
      danglingFrom ids (index + 1) rest

/-- All structural findings, each kind in its turn. -/
def issues (g : Graph) : List Issue :=
  let flow := g.flowNodes
  emptyIssues flow ++ startIssues flow ++
    (if flow.isEmpty then [] else terminalIssues flow g.edges) ++
    endIssues flow g.edges ++ danglingFrom (g.nodes.map (·.id)) 0 g.edges

def checkStructure (g : Graph) : GraphReport := .ofIssues g.issues

end WorkflowStudio.Graph
