import WorkflowStudio.Reading.Scalar

/-!
The closed vocabularies of the domain. Each word has one spelling, and a text
is read as a word only when it is spelled exactly so.
-/
namespace WorkflowStudio

class Vocabulary (α : Type) where
  title : String
  words : List α
  spelling : α → String

namespace Vocabulary

variable {α : Type} [Vocabulary α]

def find? (s : String) : Option α := words.find? fun word => spelling word == s

def ofJson? : Json → Option α
  | .str s => find? s
  | _ => none

def read (v : Json) : Checked α :=
  match ofJson? v with
  | some word => .ok word
  | none => .fail .notMember

def toJson (word : α) : Json := .str (spelling word)

/-- The name of a word, which is its spelling in capitals. -/
def capitals (word : α) : String := (spelling word).toUpper

end Vocabulary

/-- The kinds of nodes. The application node carries settings and takes no part
in the flow. -/
inductive NodeType where
  | start
  | finish
  | llmChat
  | intentClassifier
  | condition
  | fixedResponse
  | dbQuery
  | sqlGenerate
  | sqlExecute
  | knowledgeRetrieval
  | appInfo
deriving DecidableEq, Repr

def NodeType.text : NodeType → String
  | .start => "START"
  | .finish => "END"
  | .llmChat => "LLM_CHAT"
  | .intentClassifier => "INTENT_CLASSIFIER"
  | .condition => "CONDITION"
  | .fixedResponse => "FIXED_RESPONSE"
  | .dbQuery => "DB_QUERY"
  | .sqlGenerate => "SQL_GENERATE"
  | .sqlExecute => "SQL_EXECUTE"
  | .knowledgeRetrieval => "KNOWLEDGE_RETRIEVAL"
  | .appInfo => "APP_INFO"

instance : Vocabulary NodeType where
  title := "NodeType"
  words := [.start, .finish, .llmChat, .intentClassifier, .condition, .fixedResponse, .dbQuery,
    .sqlGenerate, .sqlExecute, .knowledgeRetrieval, .appInfo]
  spelling := NodeType.text

/-- The state of a node while the workflow runs. -/
inductive NodeStatus where
  | idle
  | running
  | success
  | error
deriving DecidableEq, Repr

def NodeStatus.text : NodeStatus → String
  | .idle => "idle"
  | .running => "running"
  | .success => "success"
  | .error => "error"

instance : Vocabulary NodeStatus where
  title := "NodeStatus"
  words := [.idle, .running, .success, .error]
  spelling := NodeStatus.text

/-- The declared types of parameters. -/
inductive DataType where
  | string
  | number
  | boolean
  | object
  | array
  | datetime
deriving DecidableEq, Repr

def DataType.text : DataType → String
  | .string => "string"
  | .number => "number"
  | .boolean => "boolean"
  | .object => "object"
  | .array => "array"
  | .datetime => "datetime"

instance : Vocabulary DataType where
  title := "ParamDataType"
  words := [.string, .number, .boolean, .object, .array, .datetime]
  spelling := DataType.text

/-- Where a binding takes its value from. The last two are older spellings of
a global binding in that scope. -/
inductive SourceType where
  | global
  | node
  | interface
  | session
deriving DecidableEq, Repr

def SourceType.text : SourceType → String
  | .global => "global"
  | .node => "node"
  | .interface => "interface"
  | .session => "session"

instance : Vocabulary SourceType where
  title := "ParamSourceType"
  words := [.global, .node, .interface, .session]
  spelling := SourceType.text

/-- The scopes of global parameters. -/
inductive Scope where
  | app
  | interface
  | session
deriving DecidableEq, Repr

namespace Scope

def text : Scope → String
  | .app => "app"
  | .interface => "interface"
  | .session => "session"

/-- The name of the scope in a reference. -/
def referenceName : Scope → String
  | .app => "global"
  | .interface => "interface"
  | .session => "session"

/-- The setting that declares the parameters of the scope. -/
def configKey (scope : Scope) : String := scope.text ++ "Params"

/-- The heading of the scope in a parameter picker. -/
def heading : Scope → String
  | .app => "App Params"
  | .interface => "Interface Params"
  | .session => "Session Params"

end Scope

instance : Vocabulary Scope where
  title := "GlobalScope"
  words := [.app, .interface, .session]
  spelling := Scope.text

/-- How safely values of one type feed an input of another. -/
inductive Fit where
  | compatible
  | conditional
  | incompatible
deriving DecidableEq, Repr

def Fit.text : Fit → String
  | .compatible => "compatible"
  | .conditional => "conditional"
  | .incompatible => "incompatible"

instance : Vocabulary Fit where
  title := "CompatibilityLevel"
  words := [.compatible, .conditional, .incompatible]
  spelling := Fit.text

/-- The kinds of edits that observers are told of. -/
inductive MutationKind where
  | nodeAdded
  | nodeRemoved
  | nodeUpdated
  | nodeMoved
  | edgeAdded
  | edgeUpdated
  | edgeRemoved
  | graphReplaced
deriving DecidableEq, Repr

def MutationKind.text : MutationKind → String
  | .nodeAdded => "node_added"
  | .nodeRemoved => "node_removed"
  | .nodeUpdated => "node_updated"
  | .nodeMoved => "node_moved"
  | .edgeAdded => "edge_added"
  | .edgeUpdated => "edge_updated"
  | .edgeRemoved => "edge_removed"
  | .graphReplaced => "graph_replaced"

instance : Vocabulary MutationKind where
  title := "MutationKind"
  words := [.nodeAdded, .nodeRemoved, .nodeUpdated, .nodeMoved, .edgeAdded, .edgeUpdated,
    .edgeRemoved, .graphReplaced]
  spelling := MutationKind.text

/-- The kinds of structural findings. -/
inductive IssueCode where
  | emptyGraph
  | noStartNode
  | multipleStartNodes
  | noTerminalNode
  | multipleTerminalNodes
  | invalidTerminalNode
  | endHasOutgoingEdge
  | danglingEdgeSource
  | danglingEdgeTarget
deriving DecidableEq, Repr

def IssueCode.text : IssueCode → String
  | .emptyGraph => "EMPTY_GRAPH"
  | .noStartNode => "NO_START_NODE"
  | .multipleStartNodes => "MULTIPLE_START_NODES"
  | .noTerminalNode => "NO_TERMINAL_NODE"
  | .multipleTerminalNodes => "MULTIPLE_TERMINAL_NODES"
  | .invalidTerminalNode => "INVALID_TERMINAL_NODE"
  | .endHasOutgoingEdge => "END_HAS_OUTGOING_EDGE"
  | .danglingEdgeSource => "DANGLING_EDGE_SOURCE"
  | .danglingEdgeTarget => "DANGLING_EDGE_TARGET"

instance : Vocabulary IssueCode where
  title := "GraphValidationCode"
  words := [.emptyGraph, .noStartNode, .multipleStartNodes, .noTerminalNode,
    .multipleTerminalNodes, .invalidTerminalNode, .endHasOutgoingEdge, .danglingEdgeSource,
    .danglingEdgeTarget]
  spelling := IssueCode.text

/-- Whether the history records edits or is applying an entry. -/
inductive HistoryMode where
  | idle
  | applying
deriving DecidableEq, Repr

def HistoryMode.text : HistoryMode → String
  | .idle => "idle"
  | .applying => "applying"

instance : Vocabulary HistoryMode where
  title := "HistoryMode"
  words := [.idle, .applying]
  spelling := HistoryMode.text

theorem nodeType_find?_spelling (t : NodeType) :
    Vocabulary.find? (Vocabulary.spelling t) = some t := by
  cases t <;> rfl

theorem sourceType_find?_spelling (t : SourceType) :
    Vocabulary.find? (Vocabulary.spelling t) = some t := by
  cases t <;> rfl

theorem nodeStatus_find?_spelling (s : NodeStatus) :
    Vocabulary.find? (Vocabulary.spelling s) = some s := by
  cases s <;> rfl

theorem scope_find?_spelling (s : Scope) :
    Vocabulary.find? (Vocabulary.spelling s) = some s := by
  cases s <;> rfl

end WorkflowStudio
