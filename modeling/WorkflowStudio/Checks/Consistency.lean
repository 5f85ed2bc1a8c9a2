import WorkflowStudio.Checks.Structure
import WorkflowStudio.Document.Basic

/-!
Consistency of a document: it has a name and nodes, and its entry point and its
edges refer to nodes that it holds.
-/
namespace WorkflowStudio.Document

def missingNodesFrom (ids : List String) (index : Nat) : List DocumentEdge → List String
  | [] => []
  | edge :: rest =>
      (if ids.contains edge.source then []
       else [Graph.missingEndpoint index "source" edge.source]) ++
      (if ids.contains edge.target then []
       else [Graph.missingEndpoint index "target" edge.target]) ++
      missingNodesFrom ids (index + 1) rest

def errors (d : Document) : List String :=
  let ids := d.nodes.map (·.id)
  (if d.name.isEmpty then ["Workflow name must not be empty"] else []) ++
    (if d.entryPoint.isEmpty then ["Entry point must not be empty"] else []) ++
    (if d.nodes.isEmpty then ["Workflow must contain at least one node"] else []) ++
    (if d.entryPoint.isEmpty || ids.contains d.entryPoint then []
     else ["Entry node " ++ d.entryPoint ++ " does not exist"]) ++
    missingNodesFrom ids 0 d.edges

def check (d : Document) : GraphReport := .ofErrors d.errors

end WorkflowStudio.Document
