import WorkflowStudio.Editing.Mutation
import WorkflowStudio.Graph

/-!
Outcomes of commands, and what everything that observes an editor needs of it.
-/
namespace WorkflowStudio

/-- What a command on an editor leads to. -/
structure Outcome (ε α : Type) where
  editor : ε
  result : Except Fault α
  mutation : Option Mutation

/-- An editor of a graph, as it is seen from outside. -/
class GraphEditor (ε : Type) where
  /-- The editor after its graph was looked at as a whole, which gives ids to
  what has none. -/
  settled : ε → ε
  /-- The stored text of the graph, if it can be written. -/
  snapshot : ε → Except Fault String
  /-- The full form of the graph, if it can be written. -/
  dump : ε → Except Fault Json
  replaceGraph : ε → Graph → Json → Bool → Outcome ε Unit
  dirty : ε → Bool
  summary : ε → String
  /-- The id and the label of each node. -/
  nodeRows : ε → List (List Json)
  /-- The id, the guard and the label of each edge. -/
  edgeRows : ε → List (List Json)

end WorkflowStudio
