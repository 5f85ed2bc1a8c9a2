import WorkflowStudio.Catalog.Registry

/-!
Nodes that a workflow starts out with, and the default graph of two of them.
-/
namespace WorkflowStudio.Catalog

/-- A fresh node of a kind, shown as the catalog says. -/
def newData (c : Catalog) (t : NodeType) (id : Option String) (label : String)
    (config : Fields) : NodeData where
  id := id
  nodeType := t
  label := label
  config := config
  status := .idle
  bindings := []
  customInputs := []
  customOutputs := []
  extras := c.presentation t

def fixedNode (c : Catalog) (id : String) (t : NodeType) (position : Position)
    (config : Fields) : Node :=
  ⟨id, "custom", position, c.newData t (some id) (c.label t) config, []⟩

/-- A start and an end node that are not connected. -/
def defaultGraph (c : Catalog) : Graph :=
  ⟨[c.fixedNode "start" .start (Position.ofInts 300 250) [],
    c.fixedNode "end" .finish (Position.ofInts 1000 250) []], []⟩

end WorkflowStudio.Catalog
