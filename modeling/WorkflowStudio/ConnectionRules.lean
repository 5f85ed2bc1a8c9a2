import WorkflowStudio.Guard
import WorkflowStudio.Json.Access

/-!
Which edges may be drawn. A table lists the kinds of nodes that each kind may
lead to; a table that was loaded replaces the one built in. An edge also needs
two distinct nodes that exist, and no second edge may join the same handle to
the same node.
-/
namespace WorkflowStudio

/-- The items that a value runs through. -/
def Json.elements (v : Json) : Except Fault (List Json) :=
  match v.items? with
  | some items => .ok items
  | none => .error (.notIterable v)

/-- The kinds allowed after each kind, in the order they were declared. -/
abbrev RuleTable := List (String × List String)

namespace RuleTable

def ofFields : List (String × Json) → Except Fault RuleTable
  | [] => .ok []
  | (source, targets) :: rest => do
      let targets ← targets.elements
      let rest ← ofFields rest
      return (source, targets.map Json.display) :: rest

/-- Reads a table. Entries count by their text, and a value that is not present
declares nothing. -/
def ofJson (v : Json) : Except Fault RuleTable :=
  if !v.isPresent then .ok []
  else match v with
    | .obj fields => ofFields fields
    | v => .error (.noAttribute v "items")

def toJson (table : RuleTable) : Json :=
  .obj (table.map fun row => (row.1, Json.ofStrings row.2))

end RuleTable

def builtInTargets : NodeType → List NodeType
  | .start =>
      [.llmChat, .intentClassifier, .condition, .fixedResponse, .dbQuery, .knowledgeRetrieval]
  | .llmChat =>
      [.finish, .llmChat, .condition, .fixedResponse, .dbQuery, .knowledgeRetrieval]
  | .intentClassifier =>
      [.llmChat, .condition, .fixedResponse, .finish, .dbQuery, .knowledgeRetrieval]
  | .condition => [.llmChat, .fixedResponse, .finish, .dbQuery, .knowledgeRetrieval]
  | .dbQuery => [.finish, .llmChat, .condition, .fixedResponse]
  | .knowledgeRetrieval => [.llmChat, .condition, .finish]
  | .fixedResponse => [.finish]
  | .finish | .sqlGenerate | .sqlExecute | .appInfo => []

/-- The edge of a connection, with a guard. -/
def Connection.toEdge (connection : Connection) (condition : Option String) : Edge where
  id := edgeId connection.source connection.sourceHandle connection.target
  source := connection.source
  target := connection.target
  sourceHandle := connection.sourceHandle
  targetHandle := connection.targetHandle
  label := none
  condition := condition
  extras := []

structure ConnectionRules where
  table : RuleTable

namespace ConnectionRules

def usesBuiltIn (rules : ConnectionRules) : Bool := rules.table.isEmpty

/-- The kinds that a kind may lead to; none for a kind that is not known. -/
def allowedTargets (rules : ConnectionRules) (source : String) : List String :=
  if rules.usesBuiltIn then
    match Vocabulary.find? source with
    | some type => (builtInTargets type).map NodeType.text
    | none => []
  else ((rules.table.find? (·.1 == source)).map (·.2)).getD []

def allows (rules : ConnectionRules) (source target : String) : Bool :=
  (rules.allowedTargets source).contains target

def insertName (name : String) : List String → List String
  | [] => [name]
  | other :: rest =>
      if name = other then other :: rest
      else if name < other then name :: other :: rest
      else other :: insertName name rest

/-- Names in order without repetitions. -/
def sortNames (names : List String) : List String := names.foldr insertName []

/-- Whether an edge joins the same handle to the same node. -/
def duplicates (connection : Connection) (edge : Edge) : Bool :=
  edge.source == connection.source && edge.target == connection.target &&
    edge.handle == connection.sourceHandle.getD ""

/-- Whether a proposed edge may be added. An edge that is about to be replaced
does not stand in its way. -/
def canConnect (rules : ConnectionRules) (connection : Connection) (nodes : List Node)
    (edges : List Edge) (ignored : Option String) : Bool :=
  connection.source != connection.target &&
    (match Graph.lastNode? nodes connection.source, Graph.lastNode? nodes connection.target with
    | some source, some target =>
        rules.allows source.nodeType.text target.nodeType.text &&
          !(edges.any fun edge => some edge.id != ignored && duplicates connection edge)
    | _, _ => false)

/-- The edge of an accepted connection, with its derived guard. -/
def buildEdge (source : Node) (connection : Connection) : Except Fault Edge :=
  (Guard.derive source connection.sourceHandle).map connection.toEdge

end ConnectionRules
end WorkflowStudio
