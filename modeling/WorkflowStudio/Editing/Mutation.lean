import WorkflowStudio.Json.Basic
import WorkflowStudio.Vocabulary

/-!
Mutations: what an editor tells its observers after an edit. A caller who replaces
the graph chooses the label, which may be any value.
-/
namespace WorkflowStudio

structure Mutation where
  kind : MutationKind
  label : Json
  /-- Whether quick repeats of the edit may share one entry of the history. -/
  coalesces : Bool
  nodeId : Option String
  edgeId : Option Json
deriving DecidableEq

/-- The labels of edits that say nothing about what changed. -/
def updateLabel : String := "Update config"

def nodeChangeLabel : String := "Node change"

def isGenericLabel (label : String) : Bool := label == updateLabel || label == nodeChangeLabel

namespace Mutation

def ofNode (kind : MutationKind) (label id : String) : Mutation :=
  ⟨kind, .str label, false, some id, none⟩

def ofEdge (kind : MutationKind) (label : String) (id : Json) : Mutation :=
  ⟨kind, .str label, false, none, some id⟩

/-- An edit of the settings or bindings of a node. -/
def update (id : String) : Mutation := ⟨.nodeUpdated, .str updateLabel, true, some id, none⟩

def move (label id : String) : Mutation := ⟨.nodeMoved, .str label, true, some id, none⟩

def replacement (label : Json) : Mutation := ⟨.graphReplaced, label, false, none, none⟩

end Mutation
end WorkflowStudio
